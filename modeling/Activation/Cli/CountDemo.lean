import Activation.Cli.Demo

/-! # Counting references

Two demonstrations of counts: one takes and gives back references to an object and prints the counts,
the other gives back more references to a header than there are.
-/

namespace Activation.Cli
set_option autoImplicit false

def countOf (w : World Unit) (o : ObjId) : String := toString (w.object o).header.count.val

/-- Takes `ops` references to a new object, gives them all back, and reports the counts. -/
def refcountDemo (immortal : Bool) (ops : Nat) (w : World Unit) : Demo :=
  let (_, w) := w.acquireLock
  let before := w.refTotal
  let (o, w) := w.newStr "payload"
  let w := if immortal then w.markImmortal o else w
  let retained := w.retainMany o ops
  let released := ops.repeat (fun w => w.release o) retained
  let w := (released.release o).releaseLock
  .finish w
    ["refcnt after " ++ toString ops ++ " retains: " ++ countOf retained o,
     "refcnt after releases: " ++ countOf released o,
     "immortal: " ++ Text.inspectBool (released.object o).header.isImmortal,
     "ref total delta: " ++ toString (w.refTotal - before)]
    .success

/-- The place of a release in the text of a program, as far as events report it. -/
structure Site where
  file : String
  line : Nat

/-- Gives back one reference to a header that belongs to no object. -/
def releaseHeader (site : Site) (h : Header) (w : World Unit) : Header × World Unit :=
  match h.release with
  | .skipped => (h, w)
  | .overflow => (h, w.panic .countOverflow)
  | .stored next _ => (next, w.noteRelease next)
  | .negative next =>
    let event : Event := ⟨.error, "umbra::object::refs", "negative reference count",
      [("file", .text (Text.quoted site.file)), ("line", .text (toString site.line)),
       ("refcnt", .text (toString next.count.val)), ("header", .address)]⟩
    (next, ((w.noteRelease next).emit event).sink next.count.val)

/-- The place that the second release is reported under. -/
def underflowSite : Site := ⟨"cli/src/main.rs", 366⟩

/-- Gives back two references to a header that has one. -/
def underflowDemo (w : World Unit) : Demo :=
  let (_, w) := w.acquireLock
  let (h, w) := releaseHeader underflowSite .fresh w
  let (_, w) := releaseHeader underflowSite h w
  .finish w [] (.failed "reference count underflow went undetected")

end Activation.Cli
