/-! # TOML values

The values of a TOML document, and the ways in which a document may build up its tables.

A table remembers how it came about, because that decides who may add to it later:

* a table that has a header of its own is complete, except for what stands below that header;
* a table that is only implied by the header of a table inside it may still get its own header;
* a table made by a dotted key grows by further dotted keys;
* an inline table is complete as written.
-/

namespace Activation.Toml
set_option autoImplicit false

/-- How a table came about. -/
inductive TableForm where
  | header
  | implied
  | dotted
  | inline
deriving DecidableEq, Repr

/-- A value. Of numbers with fractions and of dates only their presence matters here. -/
inductive Value where
  | string (text : String)
  | integer (n : Int)
  | boolean (b : Bool)
  | float
  | datetime
  /-- A number that is spelled as it should be but has no value. -/
  | unreadable
  /-- `grows` says that the array is made of tables with headers of their own. -/
  | array (grows : Bool) (items : List Value)
  | table (form : TableForm) (entries : List (String × Value))

abbrev Entries := List (String × Value)

mutual

/-- Whether every number in a value has a value itself. -/
def Value.isReadable : Value → Bool
  | .unreadable => false
  | .array _ items => areReadable items
  | .table _ entries => entriesReadable entries
  | _ => true

def areReadable : List Value → Bool
  | [] => true
  | v :: vs => v.isReadable && areReadable vs

def entriesReadable : List (String × Value) → Bool
  | [] => true
  | (_, v) :: es => v.isReadable && entriesReadable es

end

namespace Entries

def get? (es : Entries) (key : String) : Option Value := es.lookup key

/-- Puts a value in the place of the one that stands under `key`. -/
def replace (es : Entries) (key : String) (v : Value) : Entries :=
  es.map fun e => if e.1 = key then (key, v) else e

def append (es : Entries) (key : String) (v : Value) : Entries := es ++ [(key, v)]

/-- Follows a path of keys and changes the table at its end. Tables that are missing on the way are
made; the last element of an array of tables stands for the array. There is no way through an inline
table or a plain value, and a path that comes from a dotted key does not enter a table that has its
own header. -/
def descend (dotted : Bool) (change : TableForm → Entries → Option Entries) :
    List String → TableForm → Entries → Option Entries
  | [], form, es => change form es
  | key :: path, _, es =>
    let fresh := if dotted then TableForm.dotted else TableForm.implied
    match es.get? key with
    | none => do
      let inner ← descend dotted change path fresh []
      pure (es.append key (.table fresh inner))
    | some (.table form inner) =>
      if form = .inline ∨ (dotted ∧ form = .header) then none
      else do
        let inner ← descend dotted change path form inner
        pure (es.replace key (.table form inner))
    | some (.array true items) =>
      match items.getLast? with
      | some (.table form inner) => do
        let inner ← descend dotted change path form inner
        pure (es.replace key (.array true (items.dropLast ++ [.table form inner])))
      | _ => none
    | some _ => none

/-- Defines a key in a table. A table made by dotted keys takes only dotted keys, every other table
only keys of its own, and no key is defined twice. -/
def define (path : List String) (key : String) (v : Value) (form : TableForm) (es : Entries) :
    Option Entries :=
  if (form = .dotted ↔ path = []) then none
  else
    match es.get? key with
    | none => some (es.append key v)
    | some _ => none

/-- Defines a possibly dotted key, given as the path to its table and the last key. -/
def defineAt (path : List String) (key : String) (v : Value) (form : TableForm) (es : Entries) :
    Option Entries :=
  descend true (define path key v) path form es

/-- Opens the table that a header names. -/
def openTable (key : String) (_ : TableForm) (es : Entries) : Option Entries :=
  match es.get? key with
  | none => some (es.append key (.table .header []))
  | some (.table .implied inner) => some (es.replace key (.table .header inner))
  | some _ => none

/-- Opens a further element of the array of tables that a header names. -/
def openElement (key : String) (_ : TableForm) (es : Entries) : Option Entries :=
  match es.get? key with
  | none => some (es.append key (.array true [.table .header []]))
  | some (.array true items) => some (es.replace key (.array true (items ++ [.table .header []])))
  | some _ => none

end Entries

end Activation.Toml
