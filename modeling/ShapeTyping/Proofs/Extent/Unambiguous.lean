import Mathlib.Algebra.Free
import Mathlib.Algebra.GroupWithZero.Nat
import Mathlib.Data.List.Forall2
import ShapeTyping.Proofs.Extent.Text

/-!
# Unambiguous texts

Extents without floating-point literals have one text exactly when they are the same tree, up to the
identities and data types of their variables. The text of a product thus shows its factors, their
order and the places of its parentheses.
-/

namespace ShapeTyping

namespace Extent

section Similar

/-- Both are the same tree: operations, operands from left to right, literals with their data types,
wildcards and names of variables agree. Labels, and the identities and data types of variables, may
differ. -/
inductive Similar : Extent → Extent → Prop
  | int {label label' : Label} {value : Int64} {dtype : DataType} :
      Similar (int label value dtype) (int label' value dtype)
  | float {label label' : Label} {value : Binary64} {dtype : DataType} :
      Similar (float label value dtype) (float label' value dtype)
  | var {label label' : Label} {shapeVar shapeVar' : ShapeVar}
      (same_name : shapeVar.name = shapeVar'.name) :
      Similar (var label shapeVar) (var label' shapeVar')
  | binary {label label' : Label} {op : ExtentOp} {left left' right right' : Extent}
      (left_similar : Similar left left') (right_similar : Similar right right') :
      Similar (binary label op left right) (binary label' op left' right')
  | any {label label' : Label} : Similar (any label) (any label')

theorem Similar.shown_eq {left right : Extent} (similar : left.Similar right) :
    left.shown = right.shown := by
  induction similar with
  | var same_name => rw [shown, shown, same_name]
  | binary _ _ left_induction right_induction =>
      rw [shown, shown, left_induction, right_induction]
  | int | float | any => rfl

/-- Trees are the same exactly when they show the same. -/
theorem similar_iff_shown_eq {left right : Extent} :
    left.Similar right ↔ left.shown = right.shown := by
  refine ⟨Similar.shown_eq, fun same => ?_⟩
  induction left generalizing right with
  | int label value dtype =>
      cases right with
      | int =>
          obtain ⟨-, rfl, rfl⟩ := int.inj same
          exact .int
      | _ => contradiction
  | float label value dtype =>
      cases right with
      | float =>
          obtain ⟨-, rfl, rfl⟩ := float.inj same
          exact .float
      | _ => contradiction
  | var label shapeVar =>
      cases right with
      | var => exact .var (ShapeVar.mk.inj (var.inj same).2).2.1
      | _ => contradiction
  | binary label op first second first_induction second_induction =>
      cases right with
      | binary =>
          obtain ⟨-, rfl, same_first, same_second⟩ := binary.inj same
          exact .binary (first_induction same_first) (second_induction same_second)
      | _ => contradiction
  | any label =>
      cases right with
      | any => exact .any
      | _ => contradiction

/-- Extents without floating-point literals have one text exactly when they are the same tree. -/
theorem render_eq_iff_similar {left right : Extent} (readable : left.Named ∧ left.Integral)
    (readable' : right.Named ∧ right.Integral) :
    left.render = right.render ↔ left.Similar right := by
  rw [similar_iff_shown_eq]
  constructor
  · intro same
    have same_chars : left.render.toList ++ [] = right.render.toList ++ [] := by rw [same]
    exact (reads_extent readable.1 readable.2 right [] [] readable' Text.stops_nil Text.stops_nil
      same_chars).1
  · intro same
    rw [← left.render_shown, same, right.render_shown]

end Similar

section Products

/-- The product of factors that are multiplied in pairs as they stand. -/
def product : FreeMagma Extent → Extent
  | .of factor => factor
  | .mul left right => binary none .mul (product left) (product right)

/-- The factors from left to right. -/
def factors : FreeMagma Extent → List Extent
  | .of factor => [factor]
  | .mul left right => factors left ++ factors right

/-- The places of the parentheses, whatever the factors are. -/
def association (tree : FreeMagma Extent) : FreeMagma Unit := FreeMagma.map (fun _ => ()) tree

/-- The extent is a product itself. -/
def isProduct : Extent → Bool
  | binary _ op _ _ => op = .mul
  | int _ _ _ | float _ _ _ | var _ _ | any _ => false

theorem length_factors (tree : FreeMagma Extent) :
    (factors tree).length = (association tree).length := by
  induction tree using FreeMagma.rec with
  | of factor => rfl
  | mul left right left_induction right_induction =>
      rw [factors, List.length_append, left_induction, right_induction]
      rfl

theorem factors_map_shown (tree : FreeMagma Extent) :
    factors (FreeMagma.map shown tree) = (factors tree).map shown := by
  induction tree using FreeMagma.rec with
  | of factor => rfl
  | mul left right left_induction right_induction =>
      rw [factors, List.map_append, ← left_induction, ← right_induction]
      rfl

theorem association_map_shown (tree : FreeMagma Extent) :
    association (FreeMagma.map shown tree) = association tree := by
  induction tree using FreeMagma.rec with
  | of factor => rfl
  | mul left right left_induction right_induction =>
      exact congrArg₂ FreeMagma.mul left_induction right_induction

/-- Factors and parentheses make up the tree. -/
theorem eq_of_association_eq {tree tree' : FreeMagma Extent}
    (same_association : association tree = association tree')
    (same_factors : factors tree = factors tree') : tree = tree' := by
  induction tree using FreeMagma.rec generalizing tree' with
  | of factor =>
      cases tree' with
      | of factor' => rw [(List.cons.inj same_factors).1]
      | mul => contradiction
  | mul left right left_induction right_induction =>
      cases tree' with
      | of => contradiction
      | mul left' right' =>
          injection same_association with same_left same_right
          have same_length : (factors left).length = (factors left').length := by
            rw [length_factors, length_factors]
            exact congrArg FreeMagma.length same_left
          obtain ⟨left_factors, right_factors⟩ := List.append_inj same_factors same_length
          rw [left_induction same_left left_factors, right_induction same_right right_factors]

theorem shown_product (tree : FreeMagma Extent) :
    (product tree).shown = product (FreeMagma.map shown tree) := by
  induction tree using FreeMagma.rec with
  | of factor => rfl
  | mul left right left_induction right_induction =>
      exact congrArg₂ (binary none .mul) left_induction right_induction

theorem readable_product {tree : FreeMagma Extent}
    (readable : ∀ factor ∈ factors tree, factor.Named ∧ factor.Integral) :
    (product tree).Named ∧ (product tree).Integral := by
  induction tree using FreeMagma.rec with
  | of factor => exact readable factor (List.mem_singleton_self factor)
  | mul left right left_induction right_induction =>
      rw [factors, List.forall_mem_append] at readable
      obtain ⟨left_named, left_integral⟩ := left_induction readable.1
      obtain ⟨right_named, right_integral⟩ := right_induction readable.2
      exact ⟨⟨left_named, right_named⟩, left_integral, right_integral⟩

/-- Every multiplication adds the same to the size. -/
theorem sizeOf_product (tree : FreeMagma Extent) :
    sizeOf (product tree) + 3 = ((factors tree).map fun factor => sizeOf factor + 3).sum := by
  induction tree using FreeMagma.rec with
  | of factor => rfl
  | mul left right left_induction right_induction =>
      rw [factors, List.map_append, List.sum_append, ← left_induction, ← right_induction, product]
      simp only [binary.sizeOf_spec, Option.none.sizeOf_spec, ExtentOp.mul.sizeOf_spec]
      omega

/-- Where one list is cut can be read off the sum of positive weights before the cut. -/
theorem append_inj_of_sum {α : Type} {weight : α → Nat} (positive : ∀ item, 0 < weight item)
    {before before' after after' : List α} (same : before ++ after = before' ++ after')
    (same_sum : (before.map weight).sum = (before'.map weight).sum) :
    before = before' ∧ after = after' := by
  have nil_of_sum : ∀ items : List α, (items.map weight).sum = 0 → items = [] := by
    intro items sum_zero
    cases items with
    | nil => rfl
    | cons item items =>
        have item_pos := positive item
        simp only [List.map_cons, List.sum_cons] at sum_zero
        omega
  rcases List.append_eq_append_iff.mp same with ⟨middle, rfl, rfl⟩ | ⟨middle, rfl, rfl⟩
  · rw [List.map_append, List.sum_append] at same_sum
    obtain rfl := nil_of_sum middle (by omega)
    simp
  · rw [List.map_append, List.sum_append] at same_sum
    obtain rfl := nil_of_sum middle (by omega)
    simp

/-- A condition on two products that their halves inherit, and under which no product is a single
factor of the other side. -/
structure Aligned (condition : FreeMagma Extent → FreeMagma Extent → Prop) : Prop where
  symm {tree tree' : FreeMagma Extent} : condition tree tree' → condition tree' tree
  factor_ne {factor : Extent} {left right : FreeMagma Extent} :
    condition (.of factor) (.mul left right) → factor ≠ product (.mul left right)
  halves {left right left' right' : FreeMagma Extent} :
    condition (.mul left right) (.mul left' right') → product left = product left' →
      condition left left' ∧ condition right right'

theorem Aligned.eq_of_product_eq {condition : FreeMagma Extent → FreeMagma Extent → Prop}
    (aligned : Aligned condition) {tree tree' : FreeMagma Extent} (holds : condition tree tree')
    (same : product tree = product tree') : tree = tree' := by
  induction tree using FreeMagma.rec generalizing tree' with
  | of factor =>
      cases tree' with
      | of factor' => exact congrArg FreeMagma.of same
      | mul left' right' => exact absurd same (aligned.factor_ne holds)
  | mul left right left_induction right_induction =>
      cases tree' with
      | of factor' => exact absurd same.symm (aligned.factor_ne (aligned.symm holds))
      | mul left' right' =>
          obtain ⟨-, -, same_left, same_right⟩ := binary.inj same
          obtain ⟨left_holds, right_holds⟩ := aligned.halves holds same_left
          rw [left_induction left_holds same_left, right_induction right_holds same_right]

theorem aligned_association : Aligned fun tree tree' => association tree = association tree' where
  symm := Eq.symm
  factor_ne same_association := by contradiction
  halves same_association _ := by
    injection same_association with same_left same_right
    exact ⟨same_left, same_right⟩

theorem aligned_factors : Aligned fun tree tree' => factors tree = factors tree' where
  symm := Eq.symm
  factor_ne {_ left right} same_factors := by
    have one := congrArg List.length same_factors
    simp only [factors, List.length_append, length_factors, List.length_singleton] at one
    have left_pos := (association left).length_pos
    have right_pos := (association right).length_pos
    omega
  halves {left _ left' _} same_factors same_left := by
    -- Equal halves have equal sizes, and these tell where the list of factors is cut.
    have same_sum : ((factors left).map fun factor => sizeOf factor + 3).sum =
        ((factors left').map fun factor => sizeOf factor + 3).sum := by
      rw [← sizeOf_product, ← sizeOf_product, same_left]
    exact append_inj_of_sum (fun _ => Nat.succ_pos _) same_factors same_sum

theorem aligned_prime : Aligned fun tree tree' =>
    (∀ factor ∈ factors tree, factor.isProduct = false) ∧
      ∀ factor ∈ factors tree', factor.isProduct = false where
  symm := And.symm
  factor_ne {factor _ _} primes same := by
    have prime := primes.1 factor (List.mem_singleton_self factor)
    rw [same] at prime
    contradiction
  halves primes _ := by
    simp only [factors, List.forall_mem_append] at primes
    exact ⟨⟨primes.1.1, primes.2.1⟩, primes.1.2, primes.2.2⟩

theorem forall₂_similar_iff {extents extents' : List Extent} :
    List.Forall₂ Similar extents extents' ↔ extents.map shown = extents'.map shown := by
  rw [← List.forall₂_eq_eq_eq, List.forall₂_map_left_iff, List.forall₂_map_right_iff]
  exact iff_of_eq (congrArg (List.Forall₂ · extents extents')
    (funext₂ fun _ _ => propext similar_iff_shown_eq))

/-- Trees of factors show the same when their parentheses and what the factors show agree. -/
theorem map_shown_eq_iff {tree tree' : FreeMagma Extent} :
    FreeMagma.map shown tree = FreeMagma.map shown tree' ↔
      association tree = association tree' ∧
        List.Forall₂ Similar (factors tree) (factors tree') := by
  rw [forall₂_similar_iff, ← factors_map_shown, ← factors_map_shown, ← association_map_shown tree,
    ← association_map_shown tree']
  constructor
  · intro same
    rw [same]
    exact ⟨rfl, rfl⟩
  · exact fun same => eq_of_association_eq same.1 same.2

theorem isProduct_of_mem_map_shown {tree : FreeMagma Extent}
    (primes : ∀ factor ∈ factors tree, factor.isProduct = false) :
    ∀ factor ∈ factors (FreeMagma.map shown tree), factor.isProduct = false := by
  rw [factors_map_shown, List.forall_mem_map]
  intro factor mem
  rw [← primes factor mem]
  cases factor <;> rfl

/-- Products that differ at most in their factors, or at most in their parentheses, or whose factors
are no products themselves, are the same tree exactly when both agree. -/
theorem similar_product_iff {left right : FreeMagma Extent}
    (comparable : association left = association right ∨
      List.Forall₂ Similar (factors left) (factors right) ∨
      (∀ factor ∈ factors left, factor.isProduct = false) ∧
        ∀ factor ∈ factors right, factor.isProduct = false) :
    (product left).Similar (product right) ↔
      association left = association right ∧
        List.Forall₂ Similar (factors left) (factors right) := by
  rw [similar_iff_shown_eq, shown_product, shown_product, ← map_shown_eq_iff]
  refine ⟨fun same => ?_, fun same => by rw [same]⟩
  rcases comparable with same_association | same_factors | ⟨primes, primes'⟩
  · refine aligned_association.eq_of_product_eq ?_ same
    rw [association_map_shown, association_map_shown, same_association]
  · refine aligned_factors.eq_of_product_eq ?_ same
    rw [factors_map_shown, factors_map_shown, forall₂_similar_iff.mp same_factors]
  · exact aligned_prime.eq_of_product_eq
      ⟨isProduct_of_mem_map_shown primes, isProduct_of_mem_map_shown primes'⟩ same

end Products

/-- Extents without floating-point literals, of whatever data types, have one text exactly when they
are the same tree. So products that are associated differently, or whose factors stand in another
order, are written differently. Where they may differ in both respects, a factor that is a product
is to be taken apart, since `(m*n)*k` and `k*(m*n)` are one tree when `k` is `m*n`. -/
theorem render_unambiguous :
    (∀ left right : Extent, left.Named ∧ left.Integral → right.Named ∧ right.Integral →
      (left.render = right.render ↔ left.Similar right)) ∧
    ∀ left right : FreeMagma Extent,
      (∀ factor ∈ factors left, factor.Named ∧ factor.Integral) →
      (∀ factor ∈ factors right, factor.Named ∧ factor.Integral) →
      (association left = association right ∨
        List.Forall₂ Similar (factors left) (factors right) ∨
        (∀ factor ∈ factors left, factor.isProduct = false) ∧
          ∀ factor ∈ factors right, factor.isProduct = false) →
      ((product left).render = (product right).render ↔
        association left = association right ∧
          List.Forall₂ Similar (factors left) (factors right)) := by
  refine ⟨fun _ _ => render_eq_iff_similar, fun left right readable readable' comparable => ?_⟩
  rw [render_eq_iff_similar (readable_product readable) (readable_product readable')]
  exact similar_product_iff comparable

/-- The quotient `floordiv((floordiv - -2), (int64 + (int64)-1))` over variables of the given
identity and data type, whose names are words of the notation. -/
def lookalike (id : Nat) (dtype : DataType) : Extent :=
  binary none .floorDiv
    (binary none .sub (var none ⟨id, "floordiv", dtype⟩) (int none (-2) .int32))
    (binary none .add (var none ⟨id, "int64", dtype⟩) (int none (-1) .int64))

/-- The square of a variable. -/
def square : Extent := binary none .mul (var none ⟨2, "n", .bool⟩) (var none ⟨2, "n", .bool⟩)

/-- Three factors, the first two multiplied first. -/
def leading (first second third : Extent) : FreeMagma Extent :=
  .of first * .of second * .of third

/-- Three factors, the last two multiplied first. -/
def trailing (first second third : Extent) : FreeMagma Extent :=
  .of first * (.of second * .of third)

/-- Identities and data types of variables do not show in the text. The parentheses of three factors
and their order do, each for itself when a factor is a product, and both at once otherwise. -/
theorem lookalike_render :
    ((lookalike 0 .int32).Named ∧ (lookalike 0 .int32).Integral) ∧
      ((lookalike 1 .float32).Named ∧ (lookalike 1 .float32).Integral) ∧
      (square.Named ∧ square.Integral) ∧
      (lookalike 0 .int32).render = (lookalike 1 .float32).render ∧
      (product (leading (lookalike 0 .int32) square (any none))).render ≠
        (product (trailing (lookalike 1 .float32) square (any none))).render ∧
      (product (leading (lookalike 0 .int32) square (any none))).render ≠
        (product (leading square (lookalike 0 .int32) (any none))).render ∧
      (product (leading (lookalike 0 .int32) (int32 2) (any none))).render ≠
        (product (trailing (any none) (int32 2) (lookalike 0 .int32))).render := by
  have quotient_name : Text.isIdentifier "floordiv" = true := by decide
  have dtype_name : Text.isIdentifier "int64" = true := by decide
  have square_name : Text.isIdentifier "n" = true := by decide
  have proper : DataType.int32.Proper ∧ DataType.int64.Proper := by decide
  have readable : ∀ id dtype, (lookalike id dtype).Named ∧ (lookalike id dtype).Integral :=
    fun _ _ => ⟨⟨⟨quotient_name, proper.1⟩, dtype_name, proper.2⟩, ⟨trivial, trivial⟩, trivial,
      trivial⟩
  have square_readable : square.Named ∧ square.Integral :=
    ⟨⟨square_name, square_name⟩, trivial, trivial⟩
  have literal_readable : (int32 2).Named ∧ (int32 2).Integral := ⟨proper.1, trivial⟩
  have any_readable : (any none).Named ∧ (any none).Integral := ⟨trivial, trivial⟩
  have similar : (lookalike 0 .int32).Similar (lookalike 1 .float32) :=
    .binary (.binary (.var rfl) .int) (.binary (.var rfl) .int)
  have different : ¬(lookalike 0 .int32).Similar square := by
    simp [similar_iff_shown_eq, lookalike, square, shown]
  have leading_factors : ∀ first second third,
      factors (leading first second third) = [first, second, third] := fun _ _ _ => rfl
  have trailing_factors : ∀ first second third,
      factors (trailing first second third) = [first, second, third] := fun _ _ _ => rfl
  refine ⟨readable 0 _, readable 1 _, square_readable, ?_, ?_, ?_, ?_⟩
  · exact (render_unambiguous.1 _ _ (readable 0 _) (readable 1 _)).mpr similar
  · refine mt (render_unambiguous.2 _ _ ?_ ?_ (.inr (.inl ?_))).mp fun agree => ?_
    · simp [leading_factors, readable, square_readable, any_readable]
    · simp [trailing_factors, readable, square_readable, any_readable]
    · rw [leading_factors, trailing_factors]
      exact .cons similar (.cons (similar_iff_shown_eq.mpr rfl) (.cons .any .nil))
    · exact absurd agree.1 (by decide)
  · refine mt (render_unambiguous.2 _ _ ?_ ?_ (.inl ?_)).mp fun agree => ?_
    · simp [leading_factors, readable, square_readable, any_readable]
    · simp [leading_factors, readable, square_readable, any_readable]
    · rfl
    · rw [leading_factors, leading_factors, List.forall₂_cons] at agree
      exact different agree.2.1
  · refine mt (render_unambiguous.2 _ _ ?_ ?_ (.inr (.inr ⟨?_, ?_⟩))).mp fun agree => ?_
    · simp [leading_factors, readable, literal_readable, any_readable]
    · simp [trailing_factors, readable, literal_readable, any_readable]
    · simp [leading_factors, isProduct, lookalike, int32]
    · simp [trailing_factors, isProduct, lookalike, int32]
    · exact absurd agree.1 (by decide)

end Extent

end ShapeTyping
