import QualifiedTypes.Classes.Env
import QualifiedTypes.NameMap
import QualifiedTypes.Toml.Document

/-!
# Declarations of a prelude

What a prelude declares, before any signature is read: type constructors by arity, classes, instances,
default types and the signatures of names.  In Conch this is `PreludeConfig`.

* `Config.ofToml?` (in Conch, `from_str`) reads the declarations from a document.  Keys with another meaning are
  ignored.
-/

namespace QualifiedTypes

/-- The declarations of a prelude.  Instances, defaults and bindings are signatures. -/
structure Config where
  defaults : List String
  types : NameMap Nat
  classes : List ClassDecl
  instances : List String
  bindings : NameMap String
  deriving DecidableEq

namespace Config

open Toml

/-- No declarations. -/
def empty : Config := ⟨[], .empty, [], [], .empty⟩

/-- A value that has to be a string. -/
def string? : Value → Option String
  | .string s => some s
  | _ => none

/-- A value that has to be an arity. -/
def arity? : Value → Option Nat
  | .integer n => n.toNat?
  | _ => none

/-- A value that has to be an array. -/
def list? {α : Type} (item? : Value → Option α) : Value → Option (List α)
  | .array _ items => items.mapM item?
  | _ => none

/-- The key of a date that is read as a table. -/
def dateKey : String := "$__toml_private_datetime"

/-- The entries of a value that has to be a table.  A date is a table of one entry, its spelling. -/
def entries? : Value → Option Entries
  | .table _ entries => some entries
  | .datetime spelling => some [(dateKey, .string spelling)]
  | _ => none

/-- A value that has to be a table of items. -/
def map? {α : Type} (item? : Value → Option α) (v : Value) : Option (NameMap α) := do
  return .ofList (← (← entries? v).mapM fun e => do return (e.1, ← item? e.2))

/-- A value that may be absent. -/
def optional {α : Type} (default : α) (read? : Value → Option α) : Option Value → Option α
  | none => some default
  | some v => read? v

/-- The declaration of a class: a table with a name and superclasses, or the two in this order. -/
def class? : Value → Option ClassDecl
  | .array _ items => do
    return ⟨← string? (← items.head?), ← optional [] (list? string?) items.tail.head?⟩
  | v => do
    let entries ← entries? v
    let name ← string? (← Entries.get? entries "name")
    let supers ← optional [] (list? string?) (Entries.get? entries "supers")
    return ⟨name, supers⟩

/-- The declaration of an instance: a table with its signature, or an array that begins with it. -/
def instance? : Value → Option String
  | .array _ items => do string? (← items.head?)
  | v => do string? (← (← entries? v).get? "instance")

/-- The declarations of a top-level table. -/
def ofEntries? (entries : Entries) : Option Config := do
  let defaults ← optional [] (list? string?) (entries.get? "defaults")
  let types ← optional .empty (map? arity?) (entries.get? "types")
  let classes ← optional [] (list? class?) (entries.get? "classes")
  let instances ← optional [] (list? instance?) (entries.get? "instances")
  let bindings ← optional .empty (map? string?) (entries.get? "bindings")
  return { defaults, types, classes, instances, bindings }

/-- The declarations of a document. -/
def ofToml? (src : String) : Option Config := do ofEntries? (← Document.ofString? src)

end Config

end QualifiedTypes
