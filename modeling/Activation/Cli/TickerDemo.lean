import Activation.Cli.Demo

/-! # Driving a generator

A ticker yields the numbers from one up to a limit and then returns the limit. The demonstration
resumes it until it has finished, printing its state after every step, and then once more.
-/

namespace Activation.Cli
set_option autoImplicit false

/-- A body that counts. -/
structure Ticker where
  /-- How often the body yields. -/
  yields : Nat
  produced : Nat := 0

/-- One step of the body. Exceptions pass through it. -/
def stepTicker (input : Input) (w : World Ticker) : Ending × World Ticker :=
  match input with
  | .thrown e => (.raises e, w)
  | .sent o =>
    let w := w.release o
    if w.host.produced < w.host.yields then
      let w := w.modifyHost fun t => { t with produced := t.produced + 1 }
      let (value, w) := w.newInt w.host.produced
      (.yields value, w)
    else
      let (value, w) := w.newInt w.host.yields
      (.returns value, w)

def tickerHost : Host Ticker where
  step _ _ input w := stepTicker input w
  build _ code _ w := (.ok { code }, w)

/-- The state of a context in one line. -/
def stateLine (w : World Ticker) (g : GenId) : String :=
  "state=" ++ (w.stateOf g).name
    ++ " yield_point=" ++ toString ((w.yieldPoint g).getD 0)
    ++ " runnable=" ++ Text.inspectBool (w.isRunnable g)
    ++ " executing=" ++ Text.inspectBool (w.isExecuting g)

def intText (w : World Ticker) (o : ObjId) : String := toString ((w.object o).asInt.getD 0)

/-- Resumes a context until its body has finished, at most `fuel` times. The result has the lines that
were printed, and an error if a request was refused. -/
def drive (g : GenId) : Nat → World Ticker → List String × Option String × World Ticker
  | 0, w => ([], none, w)
  | fuel + 1, w =>
    match w.resume tickerHost g (.send nothing) none with
    | (.done (.yielded o), w) =>
      let line := "yielded " ++ intText w o
      let w := w.release o
      let state := stateLine w g
      let (lines, error, last) := drive g fuel w
      (line :: state :: lines, error, last)
    | (.done (.returned o), w) => (["returned " ++ intText w o], none, w.release o)
    | (.done (.raised e), w) => (["raised " ++ e.display], none, w.drop e.held)
    | (.refused e, w) => ([], some e.message, w)
    | (.panicked p, w) => ([], some p.message, w)

/-- Makes the context of the ticker. -/
def addTicker (kind : GeneratorKind) (interpreted : Bool) (w : World Ticker) : GenId × World Ticker :=
  let code := demoCode "demo" "ticker" 1
  if interpreted then
    let (r, w) := w.addRecord { code }
    w.addInterpreted kind r 0
  else w.addCompiled kind code none 0

/-- The line for a resumption after the end, if it is refused. -/
def afterwards (g : GenId) (w : World Ticker) : List String × World Ticker :=
  match w.resume tickerHost g (.send nothing) none with
  | (.refused e, w) => (["resume after completion: " ++ e.message], w)
  | (other, w) => ([], w.drop other.held)

def tickerDemo (kind : GeneratorKind) (interpreted : Bool) (w : World Ticker) : Demo :=
  let (g, w) := addTicker kind interpreted w
  let (_, w) := w.acquireLock
  let first := stateLine w g
  match drive g (w.host.yields + 1) w with
  | (lines, some error, w) => .finish w (first :: lines) (.failed error)
  | (lines, none, w) =>
    let last := stateLine w g
    let (final, w) := afterwards g w
    .finish (w.releaseLock.drop [.generator g]) (first :: lines ++ last :: final) .success

end Activation.Cli
