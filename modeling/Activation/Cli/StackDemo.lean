import Activation.Cli.Demo

/-! # The call stack of an awaited coroutine

A stack of two frames, `main` and the event loop, runs the coroutine `fetch`, which the suspended
`handler` awaits. The snapshot is taken inside `fetch` and therefore shows `handler` in place of the
event loop.
-/

namespace Activation.Cli
set_option autoImplicit false

/-! ## Taking the snapshot -/

/-- What the two bodies share. -/
structure Capture where
  detail : Detail
  /-- The context that `handler` awaits. -/
  fetch : GenId := 0
  taken : Option (Except WalkError (List StackEntry)) := none

def fetchBody : BodyId := 0

def handlerBody : BodyId := 1

/-- `fetch` takes the snapshot and returns a number. -/
def stepFetch (g : GenId) (sent : ObjId) (w : World Capture) : Ending × World Capture :=
  let (taken, w) := (w.setIp (w.generator g).frame 8).snapshot w.host.detail
  let (o, w) := (w.modifyHost fun c => { c with taken := some taken }).newInt 200
  (.returns o, w.release sent)

/-- `handler` awaits `fetch` and yields. -/
def stepHandler (g : GenId) (sent : ObjId) (w : World Capture) : Ending × World Capture :=
  match (w.setIp (w.generator g).frame 0).setAwaiter w.host.fetch (some g) with
  | (.ok (), w) => (.yields nothing, w.release sent)
  | (.error e, w) => (.raises (.runtimeError e.message), w.release sent)

def captureHost : Host Capture where
  step body g input w :=
    match input with
    | .thrown e => (.raises e, w)
    | .sent o => if body = fetchBody then stepFetch g o w else stepHandler g o w
  build _ code _ w := (.ok { code }, w)

/-- Puts a frame on the stack under a guard that takes over the handle on it. A new frame is neither
linked nor current, so it is not refused. -/
def enterNew (w : World Capture) (f : FrameId) : World Capture :=
  match w.enter f with
  | .ok w => w.drop [.frame f]
  | .error _ => w

/-- Runs `fetch` to its end and hands over the snapshot it has taken. -/
def runFetch (w : World Capture) : Except String (List StackEntry) × World Capture :=
  let (done, w) := w.resume captureHost w.host.fetch (.send nothing) none
  let result :=
    match done with
    | .done (.returned _) =>
      match w.host.taken with
      | some (.ok entries) => .ok entries
      | some (.error e) => .error e.message
      | none => .error "fetch never captured a stack"
    | .done _ => .error "fetch did not finish"
    | .refused e => .error e.message
    | .panicked p => .error p.message
  (result, w.drop done.held)

/-- Runs `handler` up to its first yield, and then `fetch`. -/
def runHandler (w : World Capture) (handler : GenId) :
    Except String (List StackEntry) × World Capture :=
  let (first, w) := w.resume captureHost handler (.send nothing) none
  let (result, w) :=
    match first with
    | .done (.yielded _) => runFetch w
    | .done _ => (.error "handler did not suspend", w)
    | .refused e => (.error e.message, w)
    | .panicked p => (.error p.message, w)
  (result, w.drop first.held)

/-- Builds the stack, takes the snapshot, and takes the stack down again. -/
def capture (w : World Capture) : Except String (List StackEntry) × World Capture :=
  let (_, w) := w.acquireLock
  let (mainRecord, w) := w.addRecord { code := demoCode "__main__" "main" 1 }
  let (mainFrame, w) := w.addInterpretedFrame mainRecord
  let w := enterNew w mainFrame
  let (loopFrame, w) := w.addFrame (.compiled (demoCode "events" "run_until_complete" 40) (some 0))
  let w := enterNew (w.setIp loopFrame 8) loopFrame
  let (fetch, w) := w.addCompiled .coroutine (demoCode "demo" "fetch" 20) none fetchBody
  let w := w.modifyHost fun c => { c with fetch }
  let (handlerRecord, w) := w.addRecord { code := demoCode "demo" "handler" 10 }
  let (handler, w) := w.addInterpreted .coroutine handlerRecord handlerBody
  let (result, w) := runHandler w handler
  let w := w.drop [.generator handler, .generator fetch]
  let w := (w.leave loopFrame).leave mainFrame
  (result, w.releaseLock)

/-! ## Printing it -/

def padLeft (width : Nat) (text : String) : String :=
  String.ofList (List.replicate (width - text.length) ' ') ++ text

/-- One line for each entry, with its number, its source line, and a mark if it has a record. -/
def entryLine (index : Nat) (e : StackEntry) : String :=
  let line := (e.line.map fun n => " line " ++ toString n).getD ""
  let mark := if e.record.isSome then " [frame]" else ""
  padLeft 3 (toString index) ++ " " ++ e.qualname ++ line ++ mark

def stackLines (entries : List StackEntry) : List String :=
  entries.mapIdx entryLine

/-- An entry as a JSON object, a member on each line. Names in a demonstration need no escapes. -/
def entryJson (e : StackEntry) : List String :=
  let name := "    \"qualname\": \"" ++ e.qualname ++ "\""
  let members :=
    match e.line with
    | none => [name]
    | some n => [name ++ ",", "    \"line\": " ++ toString n]
  "  \x7b" :: members ++ ["  \x7d"]

/-- Parts of a JSON array with a comma after each but the last. -/
def joinParts : List (List String) → List String
  | [] => []
  | [part] => part
  | part :: parts =>
    part.dropLast ++ part.getLast?.toList.map (fun line => line ++ ",") ++ joinParts parts

def stackJson (entries : List StackEntry) : List String :=
  if entries.isEmpty then ["[]"] else "[" :: joinParts (entries.map entryJson) ++ ["]"]

def stackDemo (json : Bool) (w : World Capture) : Demo :=
  match capture w with
  | (.ok entries, w) => .finish w (if json then stackJson entries else stackLines entries) .success
  | (.error message, w) => .finish w [] (.failed message)

end Activation.Cli
