import DataSquare.Erasure.Code
import DataSquare.Proofs.Erasure.Field

/-!
# Weights are values of interpolating polynomials

The weight of a node in a target is the value there of the polynomial that is one at the node and
zero at all others. So a weighted sum of the values of a polynomial at distinct nodes is its value
at the target, as long as its degree is below the number of nodes.
-/
namespace DataSquare.Erasure

open Polynomial

/-- Products of lists are those of the field. -/
theorem product_eq_prod (values : List Gf256) : product values = values.prod := by
  have table : Gf256.lookup = (· * ·) := funext₂ Gf256.lookup_eq_mul
  rw [product, table, List.prod_eq_foldl]

/-- A weighted sum adds up the products of weights and symbols. -/
theorem weightedSum_map {α : Type} (sum : Gf256) (nodes : List α) (weight symbol : α → Gf256) :
    weightedSum sum (nodes.map weight) (nodes.map symbol) =
      sum + (nodes.map fun node => weight node * symbol node).sum := by
  induction nodes generalizing sum with
  | nil => exact (add_zero sum).symm
  | cons node nodes ih =>
    rw [List.map_cons, List.map_cons, weightedSum, ih, Gf256.lookup_eq_mul, List.map_cons,
      List.sum_cons, add_assoc]

section Nodes

variable {nodes : List Gf256} (distinct : nodes.Nodup)
include distinct

/-- The weight of a node is the value of its polynomial at the target. -/
theorem weight_eq_eval (target node : Gf256) :
    weight nodes target node = (Lagrange.basis nodes.toFinset id node).eval target := by
  have others : (nodes.filter (· ≠ node)).toFinset = nodes.toFinset.erase node := by
    ext other
    simp [and_comm]
  have productOthers (term : Gf256 → Gf256) : product ((nodes.filter (· ≠ node)).map term) =
      ∏ other ∈ nodes.toFinset.erase node, term other := by
    rw [product_eq_prod, ← others, List.prod_toFinset _ (distinct.filter _)]
  rw [weight, productOthers, productOthers, Gf256.lookup_eq_mul, Gf256.reciprocal_eq_inv,
    Lagrange.basis, eval_prod, ← Finset.prod_inv_distrib, ← Finset.prod_mul_distrib]
  refine Finset.prod_congr rfl fun other _ => ?_
  rw [Lagrange.basisDivisor]
  simp [mul_comm]

/-- The weighted sum of the values of a polynomial is its value at the target. -/
theorem weightedSum_eval {polynomial : Gf256[X]} (low : polynomial.degree < nodes.length)
    (target : Gf256) : weightedSum 0 (nodes.map (weight nodes target))
      (nodes.map polynomial.eval) = polynomial.eval target := by
  have size : nodes.toFinset.card = nodes.length := List.toFinset_card_of_nodup distinct
  have same := Lagrange.eq_interpolate (s := nodes.toFinset) (v := id)
    Function.injective_id.injOn (size ▸ low)
  calc
    weightedSum 0 (nodes.map (weight nodes target)) (nodes.map polynomial.eval) =
        ∑ node ∈ nodes.toFinset, weight nodes target node * polynomial.eval node := by
      rw [weightedSum_map, zero_add, List.sum_toFinset _ distinct]
    _ = ∑ node ∈ nodes.toFinset, polynomial.eval node *
        (Lagrange.basis nodes.toFinset id node).eval target := by
      refine Finset.sum_congr rfl fun node _ => ?_
      rw [weight_eq_eval distinct, mul_comm]
    _ = polynomial.eval target := by
      conv_rhs => rw [same, Lagrange.interpolate_apply, eval_finsetSum]
      simp

end Nodes

end DataSquare.Erasure
