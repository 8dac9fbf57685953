import ShapeTyping.Proofs.Ty.Essence

/-!
# Equality and digests

In one memory, equality of types, relations, extents and attribute bags looks at their essence and
at nothing else. The shortcuts on shared nodes therefore decide nothing, equality is an equivalence,
and equal values have the same digest.
-/

namespace ShapeTyping

/-- Equality on the values that satisfy `holds` tells apart what differs in its view and nothing
else, and equal values have one digest. -/
structure Discerns {α β : Type} [BEq α] (holds : α → Prop) (view : α → β)
    (digest : α → List DigestItem) : Prop where
  beq_iff : ∀ left right, holds left → holds right →
    ((left == right) = true ↔ view left = view right)
  refl : ∀ value, holds value → (value == value) = true
  symm : ∀ left right, holds left → holds right → (left == right) = true →
    (right == left) = true
  trans : ∀ left middle right, holds left → holds middle → holds right →
    (left == middle) = true → (middle == right) = true → (left == right) = true
  digest_eq : ∀ left right, holds left → holds right → (left == right) = true →
    digest left = digest right

/-- Equality that is decided by a view is an equivalence. -/
theorem Discerns.of_view {α β : Type} [BEq α] {holds : α → Prop} {view : α → β}
    {digest : α → List DigestItem}
    (beq_iff : ∀ left right, holds left → holds right →
      ((left == right) = true ↔ view left = view right))
    (digest_eq : ∀ left right, view left = view right → digest left = digest right) :
    Discerns holds view digest where
  beq_iff := beq_iff
  refl value holds := (beq_iff value value holds holds).mpr rfl
  symm left right holds holds' equal := by
    rw [beq_iff left right holds holds'] at equal
    rw [beq_iff right left holds' holds]
    exact equal.symm
  trans left middle right holds holds' holds'' equal equal' := by
    rw [beq_iff left middle holds holds'] at equal
    rw [beq_iff middle right holds' holds''] at equal'
    rw [beq_iff left right holds holds'']
    exact equal.trans equal'
  digest_eq left right holds holds' equal :=
    digest_eq left right ((beq_iff left right holds holds').mp equal)

section Digest

@[simp]
theorem Extent.digest_essence (extent : Extent) : extent.essence.digest = extent.digest := by
  induction extent with
  | binary label op left right left_induction right_induction =>
      rw [essence, digest, digest, left_induction, right_induction]
  | _ => rfl

theorem Ty.digestList_eq_flatMap (types : List Ty) : digestList types = types.flatMap digest := by
  induction types with
  | nil => rfl
  | cons type types induction => rw [digestList, induction, List.flatMap_cons]

theorem Relation.digestList_eq_flatMap (relations : List Relation) :
    digestList relations = relations.flatMap digest := by
  induction relations with
  | nil => rfl
  | cons relation relations induction => rw [digestList, induction, List.flatMap_cons]

theorem Ty.digestList_map_essence {types : List Ty}
    (each : ∀ type ∈ types, type.essence.digest = type.digest) :
    digestList (types.map essence) = digestList types := by
  rw [digestList_eq_flatMap, digestList_eq_flatMap, List.flatMap_map]
  exact List.flatMap_congr each

theorem Relation.digest_essence_of_args {relation : Relation}
    (each : ∀ arg ∈ relation.args, arg.essence.digest = arg.digest) :
    relation.essence.digest = relation.digest := by
  obtain ⟨label, fn, args, inputCount, attrs⟩ := relation
  have args_same : Ty.digestList (args.map Ty.essence) = Ty.digestList args :=
    Ty.digestList_map_essence each
  simp [essence, bare, mapArgs, digest, Relation.fn, Relation.args, Relation.inputCount,
    Relation.attrs, RelationFn.essence, args_same]

/-- The digest of a type is read off its essence. -/
@[simp]
theorem Ty.digest_essence (type : Ty) : type.essence.digest = type.digest := by
  induction type using parts_induction with
  | step type induction =>
      cases type with
      | tensor label tensorType => simp [digest, List.flatMap_map]
      | var label occurrence => cases occurrence <;> rw [essence_var] <;> rfl
      | any label => rw [essence_any]; rfl
      | call label callee args =>
          rw [parts_call, List.forall_mem_cons] at induction
          rw [essence_call, digest, digest, induction.1, List.length_map,
            digestList_map_essence induction.2]
      | func label params args result constraints =>
          simp only [parts_func, List.forall_mem_append, List.forall_mem_singleton,
            List.forall_mem_flatMap] at induction
          obtain ⟨⟨args_same, result_same⟩, relations_same⟩ := induction
          have constraints_same : Relation.digestList (constraints.map Relation.essence) =
              Relation.digestList constraints := by
            rw [Relation.digestList_eq_flatMap, Relation.digestList_eq_flatMap, List.flatMap_map]
            exact List.flatMap_congr fun relation mem =>
              Relation.digest_essence_of_args (relations_same relation mem)
          rw [essence_func, digest, digest, List.length_map, List.length_map, List.length_map,
            digestList_map_essence args_same, result_same, constraints_same, List.map_map]
          rfl
      | tuple label fields =>
          rw [parts_tuple] at induction
          rw [essence_tuple, digest, digest, List.length_map, digestList_map_essence induction]
      | ref label value =>
          rw [parts_ref, List.forall_mem_singleton] at induction
          rw [essence_ref, digest, digest, induction]

@[simp]
theorem Relation.digest_essence (relation : Relation) :
    relation.essence.digest = relation.digest :=
  digest_essence_of_args fun arg _ => arg.digest_essence

end Digest

namespace Attrs

theorem eq_iff_entries {left right : Attrs} : left = right ↔ left.entries = right.entries := by
  obtain ⟨entries⟩ := left
  obtain ⟨entries'⟩ := right
  rw [mk.injEq]

/-- A bag behind a handle; all copies of a handle have one number. -/
structure Shared where
  /-- The number of the handle. -/
  label : Label
  /-- The bag. -/
  attrs : Attrs

namespace Shared

/-- Handles of one number are equal at once; other bags are compared entry by entry. -/
protected def beq (left right : Shared) : Bool :=
  left.label.same right.label ||
    (left.attrs.size == right.attrs.size &&
      (left.attrs.entries.zip right.attrs.entries).all fun (entry, entry') =>
        entry.1 == entry'.1 && entry.2 == entry'.2)

instance : BEq Shared := ⟨Shared.beq⟩

/-- The bag is the one that `bags` has under the number of the handle. -/
def CoherentIn (bags : Nat → Attrs) (shared : Shared) : Prop :=
  ∀ number, shared.label = some number → bags number = shared.attrs

theorem entries_eq_iff (entries entries' : List (String × AttrValue)) :
    (entries.length == entries'.length &&
        (entries.zip entries').all fun (entry, entry') =>
          entry.1 == entry'.1 && entry.2 == entry'.2) = true ↔ entries = entries' := by
  induction entries generalizing entries' with
  | nil => cases entries' <;> simp
  | cons entry entries induction =>
      cases entries' with
      | nil => simp
      | cons entry' entries' =>
          rw [List.cons.injEq, ← induction, Prod.ext_iff]
          simp only [List.length_cons, List.zip_cons_cons, List.all_cons, Bool.and_eq_true,
            beq_iff_eq, Nat.add_right_cancel_iff]
          tauto

/-- The shortcut on handles decides nothing: the bags are compared by what is in them. -/
theorem beq_eq {bags : Nat → Attrs} {left right : Shared} (coherent : left.CoherentIn bags)
    (coherent' : right.CoherentIn bags) : (left == right) = (left.attrs == right.attrs) := by
  change left.beq right = _
  cases same : left.label.same right.label with
  | true =>
      obtain ⟨number, labelled, labelled'⟩ := Label.same_iff.mp same
      have contents := (coherent number labelled).symm.trans (coherent' number labelled')
      rw [Shared.beq, same, Bool.true_or, contents, beq_self_eq_true]
  | false =>
      rw [Shared.beq, same, Bool.false_or, Bool.eq_iff_iff, beq_iff_eq, eq_iff_entries]
      exact entries_eq_iff left.attrs.entries right.attrs.entries

theorem beq_iff {bags : Nat → Attrs} {left right : Shared} (coherent : left.CoherentIn bags)
    (coherent' : right.CoherentIn bags) :
    (left == right) = true ↔ left.attrs.entries = right.attrs.entries := by
  rw [beq_eq coherent coherent', beq_iff_eq, eq_iff_entries]

end Shared

theorem digest_eq_of_entries {left right : Attrs} (same : left.entries = right.entries) :
    left.digest = right.digest := by
  rw [digest, digest, size, size, same]

end Attrs

/-- Relations whose bags stand behind handles may compare them by handle, with the shortcut; the
outcome is that of the comparison without it. -/
theorem Relation.beq_eq_of_handles {bags : Nat → Attrs} {left right : Relation}
    {handle handle' : Attrs.Shared} (behind : handle.attrs = left.attrs)
    (behind' : handle'.attrs = right.attrs) (coherent : handle.CoherentIn bags)
    (coherent' : handle'.CoherentIn bags) :
    (left == right) =
      (left.sameNode right ||
        (left.fn.id == right.fn.id && Ty.beqList left.args right.args &&
          left.inputCount == right.inputCount && handle == handle')) := by
  obtain ⟨label, fn, args, inputCount, attrs⟩ := left
  obtain ⟨label', fn', args', inputCount', attrs'⟩ := right
  rw [Attrs.Shared.beq_eq coherent coherent', behind, behind']
  change Relation.beq _ _ = _
  rw [Relation.beq]
  rfl

/-- Equality is sameness of essence, whichever nodes are shared, so it is an equivalence and agrees
with digests: for types, extents, relations, and attribute bags with or without handles. -/
theorem equality_discerns_essence (memory : Memory) (bags : Nat → Attrs) :
    Discerns (Ty.CoherentIn memory) Ty.essence Ty.digest ∧
      Discerns (Extent.CoherentIn memory) Extent.essence Extent.digest ∧
      Discerns (Relation.CoherentIn memory) Relation.essence Relation.digest ∧
      Discerns (Attrs.Shared.CoherentIn bags) (fun shared => shared.attrs.entries)
        (fun shared => shared.attrs.digest) ∧
      Discerns (fun _ : Attrs => True) Attrs.entries Attrs.digest := by
  refine ⟨.of_view (fun _ _ => Ty.CoherentIn.beq_iff) ?_,
    .of_view (fun _ _ => Extent.CoherentIn.beq_iff) ?_,
    .of_view (fun _ _ => Relation.CoherentIn.beq_iff) ?_,
    .of_view (fun _ _ => Attrs.Shared.beq_iff) fun _ _ => Attrs.digest_eq_of_entries,
    .of_view ?_ fun _ _ => Attrs.digest_eq_of_entries⟩
  · intro left right same
    rw [← left.digest_essence, same, right.digest_essence]
  · intro left right same
    rw [← left.digest_essence, same, right.digest_essence]
  · intro left right same
    rw [← left.digest_essence, same, right.digest_essence]
  · intro left right _ _
    rw [beq_iff_eq, Attrs.eq_iff_entries]

/-- A function type whose constraint is scaled by a number. -/
def scaledBy (label : Label) (bits : UInt64) : Ty :=
  .func none [] [] (.tuple none [])
    [.mk label ⟨0, "", .satisfied⟩ [] 0 ⟨[("scale", .float ⟨bits⟩)]⟩]

/-- The only node in use is a constraint that is scaled by no number. -/
def scaledMemory : Memory :=
  { Memory.ofTypes [] with
    relation := fun _ =>
      .mk (some 0) ⟨0, "", .satisfied⟩ [] 0 ⟨[("scale", .float ⟨0x7ff8000000000000⟩)]⟩ }

theorem scaledBy_coherent : (scaledBy (some 0) 0x7ff8000000000000).CoherentIn scaledMemory := by
  simp [scaledBy, scaledMemory, Relation.label, Relation.args]

theorem scaledBy_none_coherent (bits : UInt64) :
    (scaledBy none bits).CoherentIn scaledMemory := by
  simp [scaledBy, Relation.label, Relation.args]

/-- What is no number equals a copy of itself, also when nothing is shared, and differs from what is
no number in other bits. -/
theorem scaledBy_discerned :
    (scaledBy (some 0) 0x7ff8000000000000).CoherentIn scaledMemory ∧
      (scaledBy none 0x7ff8000000000000).CoherentIn scaledMemory ∧
      (scaledBy (some 0) 0x7ff8000000000000 == scaledBy none 0x7ff8000000000000) = true ∧
      (scaledBy (some 0) 0x7ff8000000000000).digest =
        (scaledBy none 0x7ff8000000000000).digest ∧
      ¬(scaledBy (some 0) 0x7ff8000000000000 == scaledBy none 0x7ff8000000000001) = true := by
  have types := (equality_discerns_essence scaledMemory fun _ => .empty).1
  have equal :
      (scaledBy (some 0) 0x7ff8000000000000 == scaledBy none 0x7ff8000000000000) = true := by
    rw [types.beq_iff _ _ scaledBy_coherent (scaledBy_none_coherent 0x7ff8000000000000)]
    simp [scaledBy, Relation.essence, Relation.mapArgs, Relation.bare, Relation.fn, Relation.args,
      Relation.inputCount, Relation.attrs]
  refine ⟨scaledBy_coherent, scaledBy_none_coherent _, equal,
    types.digest_eq _ _ scaledBy_coherent (scaledBy_none_coherent _) equal, ?_⟩
  rw [types.beq_iff _ _ scaledBy_coherent (scaledBy_none_coherent 0x7ff8000000000001)]
  simp [scaledBy, Relation.essence, Relation.mapArgs, Relation.bare, Relation.attrs]

end ShapeTyping
