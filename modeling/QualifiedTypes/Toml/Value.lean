/-!
# TOML values

The values of a TOML document.  Tables and arrays remember how they came about, because that decides
whether a later line of the document may extend them.
-/

namespace QualifiedTypes.Toml

/-- How a table came about. -/
inductive TableOrigin where
  /-- Written in braces: closed once and for all. -/
  | inline
  /-- Made by a dotted key. -/
  | dotted
  /-- Made on the way to a deeper table by a header. -/
  | implied
  /-- Defined by a header of its own. -/
  | header
  deriving DecidableEq

/-- How an array came about. -/
inductive ArrayOrigin where
  /-- Written in brackets: closed once and for all. -/
  | inline
  /-- Built up by headers in double brackets. -/
  | header
  deriving DecidableEq

/-- TOML values.  Of floats nothing is kept, and of dates the spelling. -/
inductive Value where
  | string (s : String)
  | integer (n : Int)
  | float
  | boolean (b : Bool)
  | datetime (spelling : String)
  | array (origin : ArrayOrigin) (items : List Value)
  | table (origin : TableOrigin) (entries : List (String × Value))

/-- The keys and values of a table. -/
abbrev Entries := List (String × Value)

namespace Entries

/-- The value of a key. -/
def get? (entries : Entries) (key : String) : Option Value :=
  (entries.find? fun e => e.1 == key).map Prod.snd

/-- Give a key a value, in place of the one it has. -/
def set (key : String) (value : Value) : Entries → Entries
  | [] => [(key, value)]
  | e :: rest => if e.1 = key then (key, value) :: rest else e :: set key value rest

/-- Change the table that a path of headers leads to.  Tables missing on the way are made, and an array
of tables stands for its last element. -/
def modifyAt (f : Entries → Option Entries) : (path : List String) → Entries → Option Entries
  | [], entries => f entries
  | key :: path, entries =>
    match entries.get? key with
    | none => do
      return entries.set key (.table .implied (← modifyAt f path []))
    | some (.table .inline _) => none
    | some (.table origin inner) => do
      return entries.set key (.table origin (← modifyAt f path inner))
    | some (.array .header items) =>
      match items.getLast? with
      | some (.table origin inner) => do
        let last := Value.table origin (← modifyAt f path inner)
        return entries.set key (.array .header (items.dropLast ++ [last]))
      | _ => none
    | some _ => none

/-- Add a value under a dotted key.  The key itself has to be new, and the table that holds it has to
have been made by dotted keys. -/
def insertDotted (key : String) (value : Value) : (path : List String) → Entries → Option Entries
  | [], entries => if (entries.get? key).isSome then none else some (entries ++ [(key, value)])
  | k :: path, entries =>
    match entries.get? k with
    | none => do
      return entries.set k (.table .dotted (← insertDotted key value path []))
    | some (.table origin inner) =>
      if origin = .dotted ∨ (origin = .implied ∧ path ≠ []) then do
        return entries.set k (.table origin (← insertDotted key value path inner))
      else none
    | some (.array .header items) =>
      match items.getLast? with
      | some (.table origin inner) =>
        if path = [] then none
        else do
          let last := Value.table origin (← insertDotted key value path inner)
          return entries.set k (.array .header (items.dropLast ++ [last]))
      | _ => none
    | some _ => none

/-- Define a table by a header.  It may exist only if a longer header has implied it. -/
def define (key : String) (entries : Entries) : Option Entries :=
  match entries.get? key with
  | none => some (entries.set key (.table .header []))
  | some (.table .implied inner) => some (entries.set key (.table .header inner))
  | some _ => none

/-- Add an empty table to an array of tables. -/
def append (key : String) (entries : Entries) : Option Entries :=
  match entries.get? key with
  | none => some (entries.set key (.array .header [.table .header []]))
  | some (.array .header items) =>
    some (entries.set key (.array .header (items ++ [.table .header []])))
  | some _ => none

/-- The table of a list of dotted keys and values. -/
def ofPairs (pairs : List ((List String × String) × Value)) : Option Entries :=
  pairs.foldlM (fun entries p => insertDotted p.1.2 p.2 p.1.1 entries) []

end Entries

end QualifiedTypes.Toml
