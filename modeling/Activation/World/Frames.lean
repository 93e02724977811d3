import Activation.World.Host
import Activation.World.Records

/-! # Frames in the world

The position of a frame, its links, and the change from the compact form to a full record. A frame
with a record reports the record's position; the record never goes away again.
-/

namespace Activation
set_option autoImplicit false

/-- What a walk needs to know of one frame. -/
structure Resolved where
  code : Code
  qualifiedName : String
  record : Option RecordId

namespace World

variable {ε : Type}

def addFrame (w : World ε) (x : Frame) : FrameId × World ε :=
  (w.frames.next, { w with frames := w.frames.insert x })

/-- A frame for interpreted code; the handle on the record goes to the frame. -/
def addInterpretedFrame (w : World ε) (r : RecordId) : FrameId × World ε :=
  let x := w.record r
  w.addFrame { code := x.code, owner := .interpreter, ip := x.lastInstr, record := some r }

/-! ## Position -/

/-- Offset of the last executed instruction, as the record has it once there is one. -/
def lastInstr (w : World ε) (f : FrameId) : Int :=
  match (w.frame f).record with
  | some r => (w.record r).lastInstr
  | none => (w.frame f).ip

def setIp (w : World ε) (f : FrameId) (ip : Int) : World ε :=
  let w := w.modifyFrame f fun x => { x with ip := ip }
  match (w.frame f).record with
  | some r => w.setLastInstr r ip
  | none => w

/-- The line of the frame, by the frame's own code. -/
def line (w : World ε) (f : FrameId) : Option Nat := (w.frame f).code.lineFor (w.lastInstr f)

/-! ## Links -/

/-- The frame of whoever awaits this one, if it is still alive. -/
def awaiter (w : World ε) (f : FrameId) : Option FrameId :=
  (w.frame f).awaiter.filter w.frames.contains

def setFrameAwaiter (w : World ε) (f : FrameId) (a : Option FrameId) : World ε :=
  w.modifyFrame f fun x => { x with awaiter := a }

/-! ## Records -/

/-- The record of a frame, built on demand. A failed attempt leaves the frame as it was. -/
def materialize (host : Host ε) (w : World ε) (f : FrameId) :
    Except Panic (Except FrameError RecordId) × World ε :=
  let x := w.frame f
  match x.record, x.builder with
  | some r, _ => (.ok (.ok r), w)
  | none, none => (.ok (.error (.notSupported x.code.qualifiedName)), w)
  | none, some b =>
    match host.build b x.code x.ip w with
    | (.error p, w) => (.error p, w)
    | (.ok built, w) =>
      let (r, w) := w.addRecord { built with lastInstr := x.ip }
      let w := w.emit ⟨.debug, "umbra::frame", "materialized frame",
        [("frame", .text x.code.qualifiedName), ("last_instr", .text (toString x.ip))]⟩
      (.ok (.ok r), w.modifyFrame f fun x => { x with record := some r })

/-- Attaches a record; the handle on it goes to the frame. A frame that has a record keeps its own
and the handle is given back. -/
def bindRecord (w : World ε) (f : FrameId) (r : RecordId) : Bool × World ε :=
  if (w.frame f).isMaterialized then (false, w.drop [.record r])
  else (true, w.modifyFrame f fun x => { x with record := some r })

/-- Code and name from the record where there is one, else from the frame itself. -/
def resolve (w : World ε) (f : FrameId) : Resolved :=
  match (w.frame f).record with
  | some r => ⟨(w.record r).code, (w.record r).code.qualifiedName, some r⟩
  | none => ⟨(w.frame f).code, (w.frame f).code.qualifiedName, none⟩

def inspectFrame (w : World ε) (f : FrameId) : String :=
  let x := w.frame f
  Text.inspectFields "ShadowFrame"
    [("code", x.code.inspect), ("owner", x.owner.name),
     ("materialized", Text.inspectBool x.isMaterialized), ("last_instr", toString (w.lastInstr f))]

end World

end Activation
