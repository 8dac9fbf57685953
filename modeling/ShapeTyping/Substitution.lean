import Std.Data.TreeMap
import ShapeTyping.Ty.Fold

/-!
# Substitution

A substitution binds variables of any sort, by identity, to types. Application follows bindings into
the types they lead to, leaves the parameters of enclosing function types alone, and nests at most
one expansion more than there are bindings, so that it also ends on cyclic bindings.
-/

namespace ShapeTyping

/-- Bindings of variables to types, in the order of their identities. -/
structure Substitution where
  /-- The type bound to each identity. -/
  bindings : Std.TreeMap Nat Ty := {}

namespace Substitution

/-- The substitution without bindings. -/
def empty : Substitution := {}

/-- Binds an identity, unless the type is that very variable. -/
def bind (substitution : Substitution) (id : Nat) (type : Ty) : Substitution :=
  if type.varId? = some id then substitution
  else ⟨substitution.bindings.insert id type⟩

/-- The type bound to an identity. -/
def lookup (substitution : Substitution) (id : Nat) : Option Ty := substitution.bindings[id]?

/-- The number of bindings. -/
def size (substitution : Substitution) : Nat := substitution.bindings.size

@[simp]
theorem lookup_empty (id : Nat) : empty.lookup id = none := by
  simp [empty, lookup]

theorem lookup_bind (substitution : Substitution) (id name : Nat) (type : Ty) :
    (substitution.bind id type).lookup name =
      if name = id ∧ type.varId? ≠ some id then some type else substitution.lookup name := by
  by_cases itself : type.varId? = some id
  · simp [bind, itself]
  · simp [bind, itself, lookup, Std.TreeMap.getElem?_insert, eq_comm (a := id)]

/-- The type that the outermost node is bound to. -/
def next? (substitution : Substitution) (type : Ty) : Option Ty :=
  type.varId?.bind substitution.lookup

/-- Follows at most `steps` bindings from the outermost node on. -/
def follow (substitution : Substitution) : (steps : Nat) → Ty → Ty
  | 0, type => type
  | steps + 1, type =>
      match substitution.next? type with
      | some next => substitution.follow steps next
      | none => type

/-- Follows bindings from the outermost node on; a longer chain than this has met a cycle. -/
def resolve (substitution : Substitution) (type : Ty) : Ty :=
  substitution.follow (substitution.size + 1) type

/-- Hands the end of the chain of every bound variable that is no parameter to `expand`. -/
def folder (substitution : Substitution) (expand : List Nat → Ty → Ty) : Folder where
  enter scope type :=
    match type.varId? with
    | none => none
    | some id =>
        let resolved := substitution.resolve type
        if id ∈ scope ∨ resolved.sameNode type then none else some (expand scope resolved)

/-- Replaces bound variables with at most `depth` expansions inside one another. -/
def applyWithin (substitution : Substitution) : (depth : Nat) → List Nat → Ty → Ty
  | 0, scope, type => ({} : Folder).foldType scope type
  | depth + 1, scope, type =>
      (substitution.folder (substitution.applyWithin depth)).foldType scope type

/-- Replaces every bound variable that is no parameter of an enclosing function type. -/
def apply (substitution : Substitution) (type : Ty) : Ty :=
  substitution.applyWithin (substitution.size + 1) [] type

end Substitution

end ShapeTyping
