import Mathlib.Data.Finset.Card
import Mathlib.Data.List.Induction
import ShapeTyping.Attrs.Basic

/-!
# Attributes set one after the other

Setting a name that is listed keeps its place and replaces its value, and a new name goes to the
end. After any history the bag lists each name once, in the order in which the names first came in,
with the value that came last. Two histories therefore lead to the same bag exactly when they agree
on this order and on the last values.
-/

namespace ShapeTyping

/-- Values of one sort with the same content; floating-point numbers have the same bits. -/
inductive AttrValue.Alike : AttrValue → AttrValue → Prop
  | bool (value : Bool) : Alike (.bool value) (.bool value)
  | int (value : Int64) : Alike (.int value) (.int value)
  | float {value value' : Binary64} (bits : value.bits = value'.bits) :
      Alike (.float value) (.float value')
  | str (value : String) : Alike (.str value) (.str value)
  | ints (values : List Int64) : Alike (.ints values) (.ints values)
  | dtype (value : DataType) : Alike (.dtype value) (.dtype value)

theorem AttrValue.alike_iff {value value' : AttrValue} : value.Alike value' ↔ value = value' := by
  constructor
  · intro alike
    cases alike with
    | @float value value' bits =>
        obtain ⟨_⟩ := value
        obtain rfl := bits
        rfl
    | bool | int | str | ints | dtype => rfl
  · rintro rfl
    cases value with
    | float value => exact .float rfl
    | bool | int | str | ints | dtype => constructor

theorem AttrValue.rel_alike_iff {value value' : Option AttrValue} :
    Option.Rel Alike value value' ↔ value = value' := by
  constructor
  · rintro (alike | _)
    · exact congrArg some (alike_iff.mp alike)
    · rfl
  · rintro rfl
    cases value with
    | none => exact .none
    | some value => exact .some (alike_iff.mpr rfl)

namespace Attrs

/-- The listed names. -/
def names (attrs : Attrs) : List String := attrs.entries.map Prod.fst

theorem map_fst_insertEntry (key : String) (value : AttrValue)
    (entries : List (String × AttrValue)) :
    (insertEntry key value entries).map Prod.fst =
      if key ∈ entries.map Prod.fst then entries.map Prod.fst
      else entries.map Prod.fst ++ [key] := by
  induction entries with
  | nil => rfl
  | cons entry entries induction =>
      obtain ⟨name, old⟩ := entry
      by_cases same : name = key
      · simp [insertEntry, same]
      · have other : key ≠ name := fun equal => same equal.symm
        simp only [insertEntry, if_neg same, List.map_cons, induction, List.mem_cons, other,
          false_or]
        split_ifs <;> rfl

/-- A new name goes to the end, and a listed one keeps its place. -/
theorem names_insert (attrs : Attrs) (key : String) (value : AttrValue) :
    (attrs.insert key value).names =
      if key ∈ attrs.names then attrs.names else attrs.names ++ [key] :=
  map_fst_insertEntry key value attrs.entries

theorem ofEntries_append (history : List (String × AttrValue)) (key : String) (value : AttrValue) :
    ofEntries (history ++ [(key, value)]) = (ofEntries history).insert key value := by
  rw [ofEntries, List.foldl_append]
  rfl

/-- The names first came in as they are listed. -/
theorem names_ofEntries (history : List (String × AttrValue)) :
    (ofEntries history).names = (history.map Prod.fst).eraseDups := by
  induction history using List.reverseRecOn with
  | nil => rfl
  | append_singleton history entry induction =>
      obtain ⟨key, value⟩ := entry
      rw [ofEntries_append, names_insert, induction, List.map_append, List.eraseDups_append]
      by_cases listed : key ∈ history.map Prod.fst
      · rw [if_pos (List.mem_eraseDups.mpr listed)]
        simp [List.removeAll, listed]
      · rw [if_neg (mt List.mem_eraseDups.mp listed)]
        simp [List.removeAll, listed, List.eraseDups_cons]

theorem mem_names_ofEntries_iff {history : List (String × AttrValue)} {key : String} :
    key ∈ (ofEntries history).names ↔ key ∈ history.map Prod.fst := by
  rw [names_ofEntries, List.mem_eraseDups]

/-- A name is found with the value that came last. -/
theorem find?_ofEntries (history : List (String × AttrValue)) (key : String) :
    (ofEntries history).find? key = history.reverse.lookup key := by
  induction history using List.reverseRecOn with
  | nil => rfl
  | append_singleton history entry induction =>
      obtain ⟨name, value⟩ := entry
      rw [ofEntries_append, find?_insert, induction, List.reverse_append, List.reverse_singleton,
        List.singleton_append, List.lookup_cons]
      by_cases same : key = name
      · simp [same]
      · simp [same, beq_false_of_ne same]

theorem ordered_ofEntries (history : List (String × AttrValue)) :
    (ofEntries history).names.Pairwise fun name next =>
      (history.map Prod.fst).idxOf name < (history.map Prod.fst).idxOf next := by
  induction history using List.reverseRecOn with
  | nil => exact .nil
  | append_singleton history entry induction =>
      obtain ⟨key, value⟩ := entry
      have kept : (ofEntries history).names.Pairwise fun name next =>
          (history.map Prod.fst ++ [key]).idxOf name <
            (history.map Prod.fst ++ [key]).idxOf next := by
        refine induction.imp_of_mem fun {name next} listed next_listed before => ?_
        rwa [List.idxOf_append_of_mem (mem_names_ofEntries_iff.mp listed),
          List.idxOf_append_of_mem (mem_names_ofEntries_iff.mp next_listed)]
      rw [ofEntries_append, names_insert, List.map_append, List.map_singleton]
      split_ifs with listed
      · exact kept
      · -- A new name comes later than all names before it.
        refine List.pairwise_append.mpr ⟨kept, List.pairwise_singleton _ _, ?_⟩
        intro name name_listed next next_mem
        obtain rfl := List.mem_singleton.mp next_mem
        have came := mem_names_ofEntries_iff.mp name_listed
        have bound := List.idxOf_lt_length_of_mem came
        rw [List.idxOf_append_of_mem came,
          List.idxOf_append_of_notMem (mt mem_names_ofEntries_iff.mpr listed)]
        omega

theorem nodup_ofEntries (history : List (String × AttrValue)) : (ofEntries history).names.Nodup :=
  (ordered_ofEntries history).imp fun {name next} before same => by
    rw [same] at before
    exact Nat.lt_irrefl _ before

/-- Where no name is listed twice, the entries are those that are found. -/
theorem mem_entries_iff {attrs : Attrs} (once : attrs.names.Nodup) {key : String}
    {value : AttrValue} : (key, value) ∈ attrs.entries ↔ attrs.find? key = some value := by
  rw [find?, List.lookup_eq_some_iff]
  constructor
  · intro mem
    obtain ⟨before, after, shape⟩ := List.append_of_mem mem
    refine ⟨before, after, shape, fun entry earlier => ?_⟩
    rw [names, shape, List.map_append, List.map_cons, List.nodup_append] at once
    have differs := once.2.2 entry.1 (List.mem_map_of_mem earlier) key List.mem_cons_self
    exact bne_iff_ne.mpr (Ne.symm differs)
  · rintro ⟨before, after, shape, -⟩
    rw [shape]
    exact List.mem_append_right _ List.mem_cons_self

/-- A bag is determined by its names and what is found for them. -/
theorem entries_eq_filterMap {attrs : Attrs} (once : attrs.names.Nodup) :
    attrs.entries = attrs.names.filterMap fun key => (attrs.find? key).map (key, ·) := by
  have found : ∀ entry ∈ attrs.entries,
      (attrs.find? entry.1).map (entry.1, ·) = some entry := by
    intro entry mem
    rw [(mem_entries_iff once).mp mem]
    rfl
  rw [names, List.filterMap_map]
  exact List.filterMap_some.symm.trans (List.filterMap_congr found).symm

/-- What a bag keeps of the entries that were set one after the other. -/
structure Records (attrs : Attrs) (history : List (String × AttrValue)) : Prop where
  /-- The names of the history are listed in the order in which they first came in. -/
  names_eq : attrs.names = (history.map Prod.fst).eraseDups
  /-- No name is listed twice. -/
  once : attrs.names.Nodup
  /-- A name is listed before another if it first came in before it. -/
  ordered : attrs.names.Pairwise fun name next =>
    (history.map Prod.fst).idxOf name < (history.map Prod.fst).idxOf next
  /-- A name has the value that came last. -/
  last : ∀ key value, (key, value) ∈ attrs.entries ↔ history.reverse.lookup key = some value
  /-- This value is found, and nothing for other names. -/
  found : ∀ key, attrs.find? key = history.reverse.lookup key
  /-- There are as many entries as different names. -/
  counted : attrs.size = (history.map Prod.fst).toFinset.card

theorem records_ofEntries (history : List (String × AttrValue)) :
    (ofEntries history).Records history where
  names_eq := names_ofEntries history
  once := nodup_ofEntries history
  ordered := ordered_ofEntries history
  last key value := by rw [mem_entries_iff (nodup_ofEntries history), find?_ofEntries]
  found := find?_ofEntries history
  counted := by
    have same : (ofEntries history).names.toFinset = (history.map Prod.fst).toFinset :=
      List.toFinset.ext fun _ => mem_names_ofEntries_iff
    rw [← same, List.toFinset_card_of_nodup (nodup_ofEntries history), names, List.length_map, size]

/-- Setting names one after the other leads to a bag that lists each name once, in the order in which
the names first came in and with the last values. The bags of two histories are equal exactly when
the histories agree on both. -/
theorem ofEntries_keeps_first_place_and_last_value (history : List (String × AttrValue)) :
    (ofEntries history).Records history ∧
      ∀ history', (ofEntries history == ofEntries history') = true ↔
        (history.map Prod.fst).eraseDups = (history'.map Prod.fst).eraseDups ∧
          ∀ key, Option.Rel AttrValue.Alike (history.reverse.lookup key)
            (history'.reverse.lookup key) := by
  refine ⟨records_ofEntries history, fun history' => ?_⟩
  rw [beq_iff_eq, ← names_ofEntries, ← names_ofEntries]
  simp only [← find?_ofEntries, AttrValue.rel_alike_iff]
  constructor
  · intro same
    rw [same]
    exact ⟨rfl, fun _ => rfl⟩
  · rintro ⟨same_names, same_values⟩
    have same : (ofEntries history).entries = (ofEntries history').entries := by
      rw [entries_eq_filterMap (nodup_ofEntries history),
        entries_eq_filterMap (nodup_ofEntries history'), same_names]
      exact List.filterMap_congr fun key _ => by rw [same_values key]
    exact congrArg Attrs.mk same

example : (ofEntries [("axis", .int 1), ("mode", .str "same"), ("axis", .int 2)]).entries =
    [("axis", .int 2), ("mode", .str "same")] := rfl

end Attrs

end ShapeTyping
