import IdempotentProxy.Foundations.FixedWidth
import IdempotentProxy.Canister.Calculator

/-!
The prices against their formulas over the integers. Two products of the request
price and one of the response price are formed in `u64` before they are widened,
and the quotes narrow `max_response_bytes` to the 32 bits of `usize`.
-/
namespace ExactCosts
open FixedWidth CycleCosts

/-- What one of the endpoints prices: `arg_data_raw_size()`, the counted bytes of the
    request and of the response, the caller's `max_response_bytes`, and 1 or the
    number of agents. -/
structure Query where
  ingressBytes : UInt32
  requestBytes : UInt32
  responseBytes : UInt32
  maxResponseBytes : Option UInt64
  duplicates : UInt32

def Query.largest (q : Query) : UInt64 := q.maxResponseBytes.getD 10240

def ingressFormula (c : Calculator) (bytes : Nat) : Nat :=
  (ingressMessageReceivedCost.toNat + ingressMessageByteReceivedCost.toNat * bytes) *
    c.subnetSize.toNat

def requestPerNode (c : Calculator) (bytes : Nat) : Nat :=
  httpOutcallRequestBaseCost.toNat + httpOutcallRequestPerNodeCost.toNat * c.subnetSize.toNat +
    httpOutcallRequestCostPerByte.toNat * (httpOutcallRequestOverheadBytes.toNat + bytes) +
    canisterOverhead.toNat

/-- With a subnet size of 0 nothing is charged, the service fee included. -/
def requestFormula (c : Calculator) (bytes duplicates : Nat) : Nat :=
  if c.subnetSize = 0 then 0
  else c.serviceFee.toNat + requestPerNode c bytes * (c.subnetSize.toNat * duplicates)

def responseFormula (c : Calculator) (bytes duplicates : Nat) : Nat :=
  httpOutcallResponseCostPerByte.toNat * bytes * (c.subnetSize.toNat * duplicates)

/-- The response price as the quotes ask for it: `max_response_bytes as usize`. -/
def quotedResponseCost (c : Calculator) (q : Query) : Nat :=
  c.httpOutcallResponseCost q.largest.toUInt32 q.duplicates

structure Exact (c : Calculator) (q : Query) : Prop where
  ingress : c.ingressCost q.ingressBytes = ingressFormula c q.ingressBytes.toNat
  request : c.httpOutcallRequestCost q.requestBytes q.duplicates =
    requestFormula c q.requestBytes.toNat q.duplicates.toNat
  response : c.httpOutcallResponseCost q.responseBytes q.duplicates =
    responseFormula c q.responseBytes.toNat q.duplicates.toNat
  quoted : quotedResponseCost c q = responseFormula c q.largest.toNat q.duplicates.toNat

structure Below (p q : Query) : Prop where
  ingress : p.ingressBytes ≤ q.ingressBytes
  request : p.requestBytes ≤ q.requestBytes
  response : p.responseBytes ≤ q.responseBytes
  largest : p.largest ≤ q.largest
  duplicates : p.duplicates ≤ q.duplicates

structure NoDearer (c : Calculator) (p q : Query) : Prop where
  ingress : c.ingressCost p.ingressBytes ≤ c.ingressCost q.ingressBytes
  request : c.httpOutcallRequestCost p.requestBytes p.duplicates ≤
    c.httpOutcallRequestCost q.requestBytes q.duplicates
  response : c.httpOutcallResponseCost p.responseBytes p.duplicates ≤
    c.httpOutcallResponseCost q.responseBytes q.duplicates
  quoted : quotedResponseCost c p ≤ quotedResponseCost c q

/-- The prices are exact, and no smaller query is dearer. -/
def PricedRight (c : Calculator) (q : Query) : Prop := Exact c q ∧ ∀ p, Below p q → NoDearer c p q

/-- Nothing is charged, or both `u64` products fit and so does the narrowed size. -/
def Fits (c : Calculator) (q : Query) : Prop :=
  c.subnetSize = 0 ∨ q.duplicates = 0 ∨
    (requestPerNode c q.requestBytes.toNat < 2 ^ 64 ∧
      c.subnetSize.toNat * q.duplicates.toNat < 2 ^ 64 ∧ q.largest.toNat < 2 ^ 32)

instance (c : Calculator) (q : Query) : Decidable (Fits c q) :=
  inferInstanceAs (Decidable (_ ∨ _ ∨ _))

section PerNode
variable (c : Calculator) (bytes : UInt32)

theorem ingress_per_node :
    (ingressMessageReceivedCost + ingressMessageByteReceivedCost * bytes.toUInt64).toNat =
      ingressMessageReceivedCost.toNat + ingressMessageByteReceivedCost.toNat * bytes.toNat := by
  have small := bytes.toNat_lt
  have received : ingressMessageReceivedCost.toNat = 1200000 := rfl
  have perByte : ingressMessageByteReceivedCost.toNat = 2000 := rfl
  simp only [UInt64.toNat_add, UInt64.toNat_mul, UInt32.toNat_toUInt64, received, perByte]
  omega

theorem request_per_node :
    (httpOutcallRequestBaseCost + httpOutcallRequestPerNodeCost * c.subnetSize +
      httpOutcallRequestCostPerByte * (httpOutcallRequestOverheadBytes + bytes.toUInt64) +
      canisterOverhead).toNat = requestPerNode c bytes.toNat % 2 ^ 64 := by
  simp only [UInt64.toNat_add, UInt64.toNat_mul, UInt32.toNat_toUInt64, requestPerNode,
    Nat.add_mod_mod, Nat.mod_add_mod, Nat.mul_mod_mod]

theorem response_per_node : (httpOutcallResponseCostPerByte * bytes.toUInt64).toNat =
    httpOutcallResponseCostPerByte.toNat * bytes.toNat := by
  have small := bytes.toNat_lt
  have perByte : httpOutcallResponseCostPerByte.toNat = 800 := rfl
  simp only [UInt64.toNat_mul, UInt32.toNat_toUInt64, perByte]
  omega

end PerNode

theorem replicas (c : Calculator) (n : UInt32) :
    (c.subnetSize * n.toUInt64).toNat = (c.subnetSize.toNat * n.toNat) % 2 ^ 64 := by
  rw [UInt64.toNat_mul, UInt32.toNat_toUInt64]

theorem subnet_positive {c : Calculator} (some : c.subnetSize ≠ 0) : 0 < c.subnetSize.toNat := by
  have differ : c.subnetSize.toNat ≠ 0 := fun same => some (UInt64.toNat_inj.mp same)
  omega

theorem duplicates_positive {n : UInt32} (some : n ≠ 0) : 0 < n.toNat := by
  have differ : n.toNat ≠ 0 := fun same => some (UInt32.toNat_inj.mp same)
  omega

theorem ingress_exact (c : Calculator) (bytes : UInt32) :
    c.ingressCost bytes = ingressFormula c bytes.toNat := by
  unfold Calculator.ingressCost ingressFormula
  split
  · rename_i free
    simp [free]
  · dsimp only
    rw [ingress_per_node]

theorem request_exact_iff (c : Calculator) (bytes n : UInt32) :
    c.httpOutcallRequestCost bytes n = requestFormula c bytes.toNat n.toNat ↔
      c.subnetSize = 0 ∨ n = 0 ∨
        (requestPerNode c bytes.toNat < 2 ^ 64 ∧ c.subnetSize.toNat * n.toNat < 2 ^ 64) := by
  unfold Calculator.httpOutcallRequestCost requestFormula
  by_cases free : c.subnetSize = 0
  · simp [free]
  by_cases none : n = 0
  · simp [none]
  simp only [free, none, ↓reduceIte, false_or]
  have subnet := subnet_positive free
  have agents := duplicates_positive none
  have base : httpOutcallRequestBaseCost.toNat = 3000000 := rfl
  have perNode : 0 < requestPerNode c bytes.toNat := by
    unfold requestPerNode
    omega
  rw [Nat.add_left_cancel_iff, request_per_node, replicas,
    product_exact_iff (Nat.mod_le _ _) (Nat.mod_le _ _) perNode (Nat.mul_pos subnet agents),
    Nat.mod_eq_iff_lt (by decide), Nat.mod_eq_iff_lt (by decide)]

theorem response_cost_eq (c : Calculator) (bytes n : UInt32) :
    c.httpOutcallResponseCost bytes n =
      httpOutcallResponseCostPerByte.toNat * bytes.toNat *
        ((c.subnetSize.toNat * n.toNat) % 2 ^ 64) := by
  unfold Calculator.httpOutcallResponseCost
  split
  · rename_i free
    simp [free]
  · dsimp only
    rw [response_per_node, replicas]

theorem response_exact_iff (c : Calculator) (largest : UInt64) (n : UInt32) :
    c.httpOutcallResponseCost largest.toUInt32 n = responseFormula c largest.toNat n.toNat ↔
      c.subnetSize = 0 ∨ n = 0 ∨ largest = 0 ∨
        (largest.toNat < 2 ^ 32 ∧ c.subnetSize.toNat * n.toNat < 2 ^ 64) := by
  rw [response_cost_eq]
  unfold responseFormula
  by_cases free : c.subnetSize = 0
  · simp [free]
  by_cases none : n = 0
  · simp [none]
  by_cases empty : largest = 0
  · simp [empty]
  simp only [free, none, empty, false_or]
  have subnet := subnet_positive free
  have agents := duplicates_positive none
  have size : 0 < largest.toNat := by
    have differ : largest.toNat ≠ 0 := fun same => empty (UInt64.toNat_inj.mp same)
    omega
  have perByte : httpOutcallResponseCostPerByte.toNat = 800 := rfl
  have narrowed : largest.toUInt32.toNat = largest.toNat % 2 ^ 32 := UInt64.toNat_toUInt32 largest
  have less := Nat.mod_le largest.toNat (2 ^ 32)
  rw [perByte, narrowed, product_exact_iff (by omega) (Nat.mod_le _ _) (by omega)
    (Nat.mul_pos subnet agents), Nat.mod_eq_iff_lt (by decide)]
  rw [Nat.mul_right_inj (by decide), Nat.mod_eq_iff_lt (by decide)]

theorem exact_iff_fits (c : Calculator) (q : Query) : Exact c q ↔ Fits c q := by
  constructor
  · intro exact
    rcases (request_exact_iff c q.requestBytes q.duplicates).mp exact.request with
      free | none | ⟨perNode, product⟩
    · exact Or.inl free
    · exact Or.inr (Or.inl none)
    · rcases (response_exact_iff c q.largest q.duplicates).mp exact.quoted with
        free | none | empty | ⟨narrow, _⟩
      · exact Or.inl free
      · exact Or.inr (Or.inl none)
      · exact Or.inr (Or.inr ⟨perNode, product, by simp [empty]⟩)
      · exact Or.inr (Or.inr ⟨perNode, product, narrow⟩)
  · intro fits
    refine ⟨ingress_exact c q.ingressBytes, ?_, ?_, ?_⟩
    · refine (request_exact_iff c q.requestBytes q.duplicates).mpr ?_
      rcases fits with free | none | ⟨perNode, product, _⟩
      · exact Or.inl free
      · exact Or.inr (Or.inl none)
      · exact Or.inr (Or.inr ⟨perNode, product⟩)
    · rw [response_cost_eq, responseFormula]
      rcases fits with free | none | ⟨_, product, _⟩
      · simp [free]
      · simp [none]
      · rw [Nat.mod_eq_of_lt product]
    · refine (response_exact_iff c q.largest q.duplicates).mpr ?_
      rcases fits with free | none | ⟨_, product, narrow⟩
      · exact Or.inl free
      · exact Or.inr (Or.inl none)
      · exact Or.inr (Or.inr (Or.inr ⟨narrow, product⟩))

theorem request_per_node_mono (c : Calculator) {a b : Nat} (less : a ≤ b) :
    requestPerNode c a ≤ requestPerNode c b := by
  have bytesCost := Nat.mul_le_mul_left httpOutcallRequestCostPerByte.toNat
    (Nat.add_le_add_left less httpOutcallRequestOverheadBytes.toNat)
  unfold requestPerNode
  omega

theorem request_formula_mono (c : Calculator) {a b m n : Nat} (size : a ≤ b) (count : m ≤ n) :
    requestFormula c a m ≤ requestFormula c b n := by
  unfold requestFormula
  split
  · exact Nat.le_refl 0
  · exact Nat.add_le_add_left
      (Nat.mul_le_mul (request_per_node_mono c size) (Nat.mul_le_mul_left _ count)) _

theorem response_formula_mono (c : Calculator) {a b m n : Nat} (size : a ≤ b) (count : m ≤ n) :
    responseFormula c a m ≤ responseFormula c b n :=
  Nat.mul_le_mul (Nat.mul_le_mul_left _ size) (Nat.mul_le_mul_left _ count)

theorem ingress_formula_mono (c : Calculator) {a b : Nat} (size : a ≤ b) :
    ingressFormula c a ≤ ingressFormula c b :=
  Nat.mul_le_mul_right _ (Nat.add_le_add_left (Nat.mul_le_mul_left _ size) _)

theorem fits_below {c : Calculator} {p q : Query} (below : Below p q) (fits : Fits c q) :
    Fits c p := by
  have count : p.duplicates.toNat ≤ q.duplicates.toNat := UInt32.le_iff_toNat_le.mp below.duplicates
  rcases fits with free | none | ⟨perNode, product, narrow⟩
  · exact Or.inl free
  · refine Or.inr (Or.inl (UInt32.toNat_inj.mp ?_))
    rw [none] at count
    exact Nat.le_zero.mp count
  · have size := request_per_node_mono c (UInt32.le_iff_toNat_le.mp below.request)
    have replicas := Nat.mul_le_mul_left c.subnetSize.toNat count
    have largest : p.largest.toNat ≤ q.largest.toNat := UInt64.le_iff_toNat_le.mp below.largest
    exact Or.inr (Or.inr ⟨by omega, by omega, by omega⟩)

theorem exact_no_dearer {c : Calculator} {p q : Query} (below : Below p q) (first : Exact c p)
    (second : Exact c q) : NoDearer c p q := by
  have count := UInt32.le_iff_toNat_le.mp below.duplicates
  refine ⟨?_, ?_, ?_, ?_⟩
  · rw [first.ingress, second.ingress]
    exact ingress_formula_mono c (UInt32.le_iff_toNat_le.mp below.ingress)
  · rw [first.request, second.request]
    exact request_formula_mono c (UInt32.le_iff_toNat_le.mp below.request) count
  · rw [first.response, second.response]
    exact response_formula_mono c (UInt32.le_iff_toNat_le.mp below.response) count
  · rw [first.quoted, second.quoted]
    exact response_formula_mono c (UInt64.le_iff_toNat_le.mp below.largest) count

/-- The prices are those of the formulas, and monotone, exactly when nothing is
    charged or nothing wraps and no size is cut. -/
theorem priced_right_iff (c : Calculator) (q : Query) : PricedRight c q ↔ Fits c q := by
  constructor
  · intro right
    exact (exact_iff_fits c q).mp right.1
  · intro fits
    have exact := (exact_iff_fits c q).mpr fits
    refine ⟨exact, ?_⟩
    intro p below
    exact exact_no_dearer below ((exact_iff_fits c p).mpr (fits_below below fits)) exact

/-- A subnet of 13 nodes, and a caller who asks for responses of up to 2^32 bytes: the
    quote prices none of them. -/
theorem quote_ignores_four_gibibytes :
    ¬ ∀ (c : Calculator) (q : Query), PricedRight c q := by
  intro claim
  have exact := (claim ⟨13, 100000000⟩ ⟨0, 0, 0, some 4294967296, 1⟩).1.quoted
  revert exact
  decide

end ExactCosts
