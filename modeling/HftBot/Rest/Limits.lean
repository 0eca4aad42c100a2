import HftBot.Core.Json
import HftBot.Core.Machine
import HftBot.Rest.RequestSpec

/-!
# Account limits and endpoint costs

The invariant check of the account limits and the parser of the cost table of `limits.cpp`. The JSON
parser is a parameter. Tier, grants and the warnings about them are left out.
-/

namespace HftBot

open HftBot.Core

/-! ### Account limits -/

structure BucketLimit where
  refillRate     : Int := 0
  bucketCapacity : Int := 0
deriving DecidableEq, Repr

structure AccountLimits where
  read  : BucketLimit
  write : BucketLimit
deriving DecidableEq, Repr

namespace BucketLimit

/-- The check of one bucket. -/
def invariantError (which : String) (b : BucketLimit) : Option String :=
  if b.refillRate ≤ 0 then
    some (which ++ " refill_rate <= 0 (" ++ toString b.refillRate ++ ")")
  else if b.bucketCapacity < b.refillRate.tdiv 2 then
    some (which ++ " bucket_capacity " ++ toString b.bucketCapacity ++ " < refill_rate/2 (" ++
      toString (b.refillRate.tdiv 2) ++ ")")
  else if b.bucketCapacity > b.refillRate * 10 then
    some (which ++ " bucket_capacity " ++ toString b.bucketCapacity ++ " > refill_rate*10 (" ++
      toString (b.refillRate * 10) ++ ")")
  else none

lemma invariantError_eq_none_iff (which : String) (b : BucketLimit) :
    b.invariantError which = none ↔
      0 < b.refillRate ∧ b.refillRate.tdiv 2 ≤ b.bucketCapacity ∧
        b.bucketCapacity ≤ b.refillRate * 10 := by
  rw [invariantError]
  split_ifs with hrate hlow hhigh
  · simp; omega
  · simp; omega
  · simp; omega
  · simp; omega

end BucketLimit

def limitsInvariantError (lim : AccountLimits) : Option String :=
  (lim.read.invariantError "read").or (lim.write.invariantError "write")

lemma limitsInvariantError_eq_none_iff (lim : AccountLimits) :
    limitsInvariantError lim = none ↔
      lim.read.invariantError "read" = none ∧ lim.write.invariantError "write" = none := by
  rw [limitsInvariantError, Option.or_eq_none_iff]

/-! ### Endpoint costs -/

/-- What is not recognized counts as a read. -/
def methodFromWire (s : List Char) : Method :=
  if s = "POST".toList then .post
  else if s = "PUT".toList then .put
  else if s = "DELETE".toList then .delete
  else .get

/-- An entry without a method, a path or a cost is skipped. -/
def parseEndpointCost (item : Json) : Option EndpointCost := do
  let o ← item.asObject
  let m ← Json.stringField o "method"
  let p ← Json.stringField o "path"
  let c ← Json.int64Field o "cost"
  return { method := methodFromWire m, path := p, cost := toInt32 c }

/-- Costs are narrowed to 32 bits and not checked any further. -/
def parseEndpointCosts (parse : List Char → Option Json) (json : List Char) : EndpointCostTable :=
  match (parse json).bind Json.asObject with
  | none      => {}
  | some root => {
      defaultCost := ((Json.int64Field root "default_cost").map toInt32).getD 10
      overrides   :=
        (((Json.field root "endpoint_costs").bind Json.asArray).getD []).filterMap parseEndpointCost
      fromServer  := true }

/-- A cost of the table is one of its entries or the default. -/
lemma costFor_eq (costs : EndpointCostTable) (method : Method) (path : List Char) :
    costs.costFor method path = costs.defaultCost ∨
      ∃ e ∈ costs.overrides, costs.costFor method path = e.cost := by
  rw [EndpointCostTable.costFor]
  split
  · next e he => exact .inr ⟨e, List.mem_of_find?_eq_some he, rfl⟩
  · split
    · next e he => exact .inr ⟨e, List.mem_of_find?_eq_some he, rfl⟩
    · exact .inl rfl

/-- Every cost of a parsed table is a 32-bit integer, and no more is known of it. -/
lemma costFor_parseEndpointCosts_bounds (parse : List Char → Option Json) (json : List Char)
    (method : Method) (path : List Char) :
    -2 ^ 31 ≤ (parseEndpointCosts parse json).costFor method path ∧
      (parseEndpointCosts parse json).costFor method path < 2 ^ 31 := by
  rcases costFor_eq (parseEndpointCosts parse json) method path with hdefault | ⟨e, he, hcost⟩
  · rw [hdefault, parseEndpointCosts]
    split
    · decide
    · next root _ =>
      cases hcost : Json.int64Field root "default_cost" with
      | none => exact (by decide : -2 ^ 31 ≤ (10 : Int) ∧ (10 : Int) < 2 ^ 31)
      | some c => exact toInt32_bounds c
  · rw [hcost]
    rw [parseEndpointCosts] at he
    split at he
    · exact absurd he List.not_mem_nil
    · obtain ⟨item, -, hitem⟩ := List.mem_filterMap.1 he
      simp only [parseEndpointCost, Option.bind_eq_bind, Option.bind_eq_some_iff,
        Option.pure_def, Option.some.injEq] at hitem
      obtain ⟨-, -, -, -, -, -, c, -, rfl⟩ := hitem
      exact toInt32_bounds c

end HftBot
