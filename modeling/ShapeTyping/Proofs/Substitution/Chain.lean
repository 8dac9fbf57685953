import Mathlib.Combinatorics.Pigeonhole
import ShapeTyping.Proofs.Substitution.Acyclic

/-!
# Chains of bindings

From a type, bindings lead on from one outermost variable to the next. What a binding leads to
depends on the variable alone, so a chain that meets a variable twice goes round a cycle from there
on. A chain of more nodes than there are bindings has met one twice. Resolution therefore gives the
end of every chain that has one, and a node on the cycle of every chain that has none, whatever
other cycles there are.
-/

namespace ShapeTyping

namespace Substitution

/-- The node that exactly `steps` bindings lead to, if the chain does not end before. -/
def trail (substitution : Substitution) : (steps : Nat) → Ty → Option Ty
  | 0, type => some type
  | steps + 1, type => (substitution.next? type).bind (substitution.trail steps)

/-- The type is no variable, or a variable that is not bound. -/
def IsEnd (substitution : Substitution) (type : Ty) : Prop :=
  ∀ id ∈ type.varId?, substitution.lookup id = none

/-- From some node on, the chain of a type repeats itself with a fixed period, and `node` is met
in the part that repeats. -/
def CirclesThrough (substitution : Substitution) (type node : Ty) : Prop :=
  ∃ start period, 0 < period ∧
    (∀ steps, start ≤ steps →
      substitution.trail (steps + period) type = substitution.trail steps type) ∧
    ∃ steps, start ≤ steps ∧ substitution.trail steps type = some node

variable {substitution : Substitution}

theorem isEnd_iff {type : Ty} : substitution.IsEnd type ↔ substitution.next? type = none := by
  rw [next?, Option.bind_eq_none_iff]
  rfl

theorem trail_add (first second : Nat) (type : Ty) :
    substitution.trail (first + second) type =
      (substitution.trail first type).bind (substitution.trail second) := by
  induction first generalizing type with
  | zero => rw [Nat.zero_add, trail, Option.bind_some]
  | succ first induction =>
      rw [Nat.succ_add, trail, trail, Option.bind_assoc]
      exact congrArg _ (funext induction)

theorem trail_succ (steps : Nat) (type : Ty) :
    substitution.trail (steps + 1) type =
      (substitution.trail steps type).bind substitution.next? := by
  have single : substitution.trail 1 = substitution.next? :=
    funext fun node => Option.bind_fun_some (substitution.next? node)
  rw [trail_add, single]

/-- A chain is as long as any later node of it tells. -/
theorem isSome_trail_of_le {steps later : Nat} {type : Ty} (le : steps ≤ later)
    (goes_on : (substitution.trail later type).isSome) :
    (substitution.trail steps type).isSome := by
  obtain ⟨further, rfl⟩ := Nat.exists_eq_add_of_le le
  rw [trail_add] at goes_on
  exact Option.isSome_of_isSome_bind goes_on

/-- No chain goes on after its end. -/
theorem trail_of_isEnd {steps later : Nat} {type last : Ty}
    (reached : substitution.trail steps type = some last) (ends : substitution.IsEnd last)
    (lt : steps < later) : substitution.trail later type = none := by
  obtain ⟨further, rfl⟩ := Nat.exists_eq_add_of_lt lt
  rw [Nat.add_assoc, trail_add, reached, Option.bind_some, trail, isEnd_iff.mp ends,
    Option.bind_none]

theorem isEnd_unique {steps steps' : Nat} {type last last' : Ty}
    (reached : substitution.trail steps type = some last) (ends : substitution.IsEnd last)
    (reached' : substitution.trail steps' type = some last') (ends' : substitution.IsEnd last') :
    last = last' := by
  rcases Nat.lt_trichotomy steps steps' with before | rfl | after
  · rw [trail_of_isEnd reached ends before] at reached'
    contradiction
  · exact Option.some.inj (reached.symm.trans reached')
  · rw [trail_of_isEnd reached' ends' after] at reached
    contradiction

/-- Following bindings stops at the end of the chain or when no steps are left. -/
theorem exists_trail_follow (substitution : Substitution) (steps : Nat) (type : Ty) :
    ∃ taken, substitution.trail taken type = some (substitution.follow steps type) ∧
      (taken = steps ∨ substitution.IsEnd (substitution.follow steps type)) := by
  induction steps generalizing type with
  | zero => exact ⟨0, rfl, Or.inl rfl⟩
  | succ steps induction =>
      rw [follow]
      cases found : substitution.next? type with
      | none => exact ⟨0, rfl, Or.inr (isEnd_iff.mpr found)⟩
      | some next =>
          obtain ⟨taken, reached, stopped⟩ := induction next
          refine ⟨taken + 1, ?_, stopped.imp_left (congrArg (· + 1))⟩
          rw [trail, found]
          exact reached

section Cycle

variable {type : Ty}

/-- The variable that the chain has arrived at. -/
def stop (substitution : Substitution) (type : Ty) (steps : Nat) : Option Nat :=
  (substitution.trail steps type).bind Ty.varId?

/-- The variable alone decides where the chain goes on. -/
theorem trail_succ_eq_stop (steps : Nat) :
    substitution.trail (steps + 1) type =
      (substitution.stop type steps).bind substitution.lookup := by
  rw [trail_succ, stop, Option.bind_assoc]
  rfl

theorem stop_mem_bound {steps : Nat} (goes_on : (substitution.trail (steps + 1) type).isSome) :
    substitution.stop type steps ∈ substitution.bound.map Function.Embedding.some := by
  rw [trail_succ_eq_stop] at goes_on
  obtain ⟨next, found⟩ := Option.isSome_iff_exists.mp goes_on
  obtain ⟨id, arrived, found⟩ := Option.bind_eq_some_iff.mp found
  rw [arrived, Finset.mem_map]
  exact ⟨id, (mem_bound id).mpr (Option.isSome_of_eq_some found), rfl⟩

/-- What is met again is followed by the same nodes again. -/
theorem trail_periodic {start period : Nat}
    (same : substitution.trail (start + period) type = substitution.trail start type)
    {steps : Nat} (late : start ≤ steps) :
    substitution.trail (steps + period) type = substitution.trail steps type := by
  obtain ⟨further, rfl⟩ := Nat.exists_eq_add_of_le late
  rw [Nat.add_right_comm, trail_add, same, ← trail_add]

/-- A chain of more nodes than there are bindings meets one of them twice. -/
theorem exists_period (long : (substitution.trail (substitution.size + 1) type).isSome) :
    ∃ start period, 0 < period ∧ start + period ≤ substitution.size + 1 ∧
      substitution.trail (start + period) type = substitution.trail start type := by
  have few : (substitution.bound.map Function.Embedding.some).card <
      (Finset.range (substitution.size + 1)).card := by
    rw [Finset.card_map, card_bound, Finset.card_range]
    exact Nat.lt_succ_self _
  have maps : Set.MapsTo (substitution.stop type) (Finset.range (substitution.size + 1))
      (substitution.bound.map Function.Embedding.some) := by
    intro steps small
    exact stop_mem_bound (isSome_trail_of_le (Finset.mem_range.mp small) long)
  -- The variables are met twice, but only the nodes after them are the same: the first of the two
  -- may be another node of its variable than the one on the cycle.
  obtain ⟨steps, small, steps', small', other, same⟩ :=
    Finset.exists_ne_map_eq_of_card_lt_of_maps_to few maps
  wlog before : steps < steps' generalizing steps steps'
  · exact this steps' small' steps small other.symm same.symm (by omega)
  have early := Finset.mem_range.mp small'
  refine ⟨steps + 1, steps' - steps, by omega, by omega, ?_⟩
  rw [show steps + 1 + (steps' - steps) = steps' + 1 by omega, trail_succ_eq_stop,
    trail_succ_eq_stop, same]

/-- Such a chain has no end. -/
theorem isSome_trail_of_long (long : (substitution.trail (substitution.size + 1) type).isSome)
    (steps : Nat) : (substitution.trail steps type).isSome := by
  obtain ⟨start, period, positive, early, same⟩ := exists_period long
  induction steps using Nat.strongRecOn with
  | ind steps induction =>
      by_cases late : start + period ≤ steps
      · obtain ⟨further, rfl⟩ := Nat.exists_eq_add_of_le' late
        rw [← Nat.add_assoc, trail_periodic same (Nat.le_add_left start further)]
        exact induction _ (by omega)
      · exact isSome_trail_of_le (by omega) long

/-- The nodes of such a chain are bound variables. -/
theorem exists_lookup_of_long (long : (substitution.trail (substitution.size + 1) type).isSome)
    {steps : Nat} {node : Ty} (reached : substitution.trail steps type = some node) :
    ∃ id, node.varId? = some id ∧ (substitution.lookup id).isSome := by
  have goes_on := isSome_trail_of_long long (steps + 1)
  rw [trail_succ, reached, Option.bind_some] at goes_on
  obtain ⟨next, found⟩ := Option.isSome_iff_exists.mp goes_on
  obtain ⟨id, variable_id, found⟩ := next?_eq_some_iff.mp found
  exact ⟨id, variable_id, Option.isSome_of_eq_some found⟩

theorem not_isEnd_of_long (long : (substitution.trail (substitution.size + 1) type).isSome)
    {steps : Nat} {node : Ty} (reached : substitution.trail steps type = some node) :
    ¬substitution.IsEnd node := by
  obtain ⟨id, variable_id, is_bound⟩ := exists_lookup_of_long long reached
  intro ends
  rw [ends id variable_id] at is_bound
  contradiction

/-- The node that is left after the last step of a resolution is on the cycle. -/
theorem circlesThrough_of_long {node : Ty}
    (reached : substitution.trail (substitution.size + 1) type = some node) :
    substitution.CirclesThrough type node := by
  obtain ⟨start, period, positive, early, same⟩ :=
    exists_period (Option.isSome_of_eq_some reached)
  exact ⟨start, period, positive, fun _ late => trail_periodic same late, _, by omega, reached⟩

end Cycle

/-- Resolution gives the very node at which the chain of bindings ends, after however many steps. A
chain without an end goes on forever, and resolution gives a bound variable on the cycle that it
runs into. -/
theorem resolve_at_end_or_on_cycle (substitution : Substitution) (type : Ty) :
    (∀ last, substitution.IsEnd last →
      ((∃ steps, substitution.trail steps type = some last) ↔
        substitution.resolve type = last)) ∧
      ((∀ steps last, substitution.trail steps type = some last → ¬substitution.IsEnd last) →
        (∀ steps, (substitution.trail steps type).isSome) ∧
          (∃ id, (substitution.resolve type).varId? = some id ∧
            (substitution.lookup id).isSome) ∧
          substitution.CirclesThrough type (substitution.resolve type)) := by
  obtain ⟨taken, reached, stopped⟩ := substitution.exists_trail_follow (substitution.size + 1) type
  rw [← resolve] at reached stopped
  refine ⟨fun last ends => ⟨?_, ?_⟩, fun endless => ?_⟩
  · rintro ⟨steps, met⟩
    rcases stopped with rfl | resolved_ends
    · exact absurd ends (not_isEnd_of_long (Option.isSome_of_eq_some reached) met)
    · exact isEnd_unique reached resolved_ends met ends
  · rintro rfl
    exact ⟨taken, reached⟩
  · obtain rfl := stopped.resolve_right (endless taken _ reached)
    have long := Option.isSome_of_eq_some reached
    exact ⟨isSome_trail_of_long long, exists_lookup_of_long long reached,
      circlesThrough_of_long reached⟩

/-- Binds two variables to each other and a placeholder to one of them, and beside this another
placeholder to one that is bound to a variable without a binding. -/
def entangled : Substitution :=
  ((((empty.bind 0 (.var (some 0) (.hole ⟨1, .type⟩))).bind 1
    (.var (some 1) (.lexical ⟨2, "a", .type⟩))).bind 2
      (.var (some 2) (.hole ⟨1, .type⟩))).bind 3
        (.var (some 3) (.hole ⟨4, .type⟩))).bind 4
          (.var (some 4) (.global ⟨5, "g", .type⟩))

theorem lookup_entangled (id : Nat) :
    entangled.lookup id =
      if id = 4 then some (.var (some 4) (.global ⟨5, "g", .type⟩))
      else if id = 3 then some (.var (some 3) (.hole ⟨4, .type⟩))
      else if id = 2 then some (.var (some 2) (.hole ⟨1, .type⟩))
      else if id = 1 then some (.var (some 1) (.lexical ⟨2, "a", .type⟩))
      else if id = 0 then some (.var (some 0) (.hole ⟨1, .type⟩)) else none := by
  simp [entangled, lookup_bind, Ty.varId?, Ty.occurrence?, Variable.id]

theorem entangled_endless {steps : Nat} {node : Ty}
    (reached : entangled.trail steps (.var (some 5) (.hole ⟨0, .type⟩)) = some node) :
    ∃ id, node.varId? = some id ∧ id ≤ 2 := by
  induction steps generalizing node with
  | zero =>
      obtain rfl := Option.some.inj reached
      exact ⟨0, rfl, Nat.zero_le 2⟩
  | succ steps induction =>
      rw [trail_succ] at reached
      obtain ⟨earlier, reached, found⟩ := Option.bind_eq_some_iff.mp reached
      obtain ⟨id, variable_id, small⟩ := induction reached
      obtain ⟨id', variable_id', found⟩ := next?_eq_some_iff.mp found
      obtain rfl : id = id' := Option.some.inj (variable_id.symm.trans variable_id')
      rw [lookup_entangled, if_neg (by omega), if_neg (by omega)] at found
      split_ifs at found
      all_goals
        obtain rfl := Option.some.inj found
        exact ⟨_, rfl, by decide⟩

/-- Next to a cycle one chain is followed to its end, and a chain into the cycle is left on it. -/
theorem entangled_resolved :
    entangled.IsEnd (.var (some 4) (.global ⟨5, "g", .type⟩)) ∧
      entangled.trail 2 (.var (some 6) (.hole ⟨3, .type⟩)) =
        some (.var (some 4) (.global ⟨5, "g", .type⟩)) ∧
      entangled.resolve (.var (some 6) (.hole ⟨3, .type⟩)) =
        .var (some 4) (.global ⟨5, "g", .type⟩) ∧
      (∀ steps last, entangled.trail steps (.var (some 5) (.hole ⟨0, .type⟩)) = some last →
        ¬entangled.IsEnd last) ∧
      entangled.CirclesThrough (.var (some 5) (.hole ⟨0, .type⟩))
        (entangled.resolve (.var (some 5) (.hole ⟨0, .type⟩))) := by
  have ends : entangled.IsEnd (.var (some 4) (.global ⟨5, "g", .type⟩)) := by
    intro id variable_id
    obtain rfl : 5 = id := Option.some.inj variable_id
    rw [lookup_entangled]
    rfl
  have reached : entangled.trail 2 (.var (some 6) (.hole ⟨3, .type⟩)) =
      some (.var (some 4) (.global ⟨5, "g", .type⟩)) := by
    simp [trail, next?, Ty.varId?, Ty.occurrence?, Variable.id, lookup_entangled]
  have endless : ∀ steps last,
      entangled.trail steps (.var (some 5) (.hole ⟨0, .type⟩)) = some last →
        ¬entangled.IsEnd last := by
    intro steps last met last_ends
    obtain ⟨id, variable_id, small⟩ := entangled_endless met
    have missing := last_ends id variable_id
    rw [lookup_entangled] at missing
    split_ifs at missing
    omega
  refine ⟨ends, reached, ?_, endless, ((resolve_at_end_or_on_cycle entangled _).2 endless).2.2⟩
  exact ((resolve_at_end_or_on_cycle entangled _).1 _ ends).mp ⟨2, reached⟩

end Substitution

end ShapeTyping
