import Mathlib.Data.Nat.Basic
import Mathlib.Tactic.Linarith

/-!
The canister's cycle prices. On the wasm target `usize` has 32 bits; the release
build wraps, so the `u64` arithmetic below is that of `UInt64`. The `u128` products
cannot wrap and are natural numbers.
-/
namespace CycleCosts

abbrev Bytes := List UInt8

structure HttpHeader where
  name : String
  value : String
  deriving DecidableEq

structure CanisterHttpRequestArgument where
  url : String
  maxResponseBytes : Option UInt64
  headers : List HttpHeader
  body : Option Bytes
  deriving DecidableEq

structure HttpResponse where
  status : Nat
  headers : List HttpHeader
  body : Bytes
  deriving DecidableEq

structure Calculator where
  subnetSize : UInt64
  serviceFee : UInt64
  deriving DecidableEq

def ingressMessageReceivedCost : UInt64 := 1200000
def ingressMessageByteReceivedCost : UInt64 := 2000
def httpOutcallRequestBaseCost : UInt64 := 3000000
def httpOutcallRequestPerNodeCost : UInt64 := 60000
def httpOutcallRequestCostPerByte : UInt64 := 400
def httpOutcallResponseCostPerByte : UInt64 := 800
def httpOutcallRequestOverheadBytes : UInt64 := 150
def canisterOverhead : UInt64 := 1000000

def len (s : String) : UInt32 := UInt32.ofNat s.utf8ByteSize

def addHeader (total : UInt32) (h : HttpHeader) : UInt32 := total + (len h.name + len h.value + 3)

namespace Calculator

def countRequestBytes (c : Calculator) (req : CanisterHttpRequestArgument) : UInt32 :=
  if c.subnetSize = 0 then 0
  else
    let total := len req.url + UInt32.ofNat ((req.body.map List.length).getD 0)
    req.headers.foldl addHeader total

def countResponseBytes (c : Calculator) (res : HttpResponse) : UInt32 :=
  if c.subnetSize = 0 then 0
  else res.headers.foldl addHeader (4 + UInt32.ofNat res.body.length)

def ingressCost (c : Calculator) (ingressBytes : UInt32) : Nat :=
  if c.subnetSize = 0 then 0
  else
    let costPerNode :=
      ingressMessageReceivedCost + ingressMessageByteReceivedCost * ingressBytes.toUInt64
    costPerNode.toNat * c.subnetSize.toNat

def httpOutcallRequestCost (c : Calculator) (requestBytes duplicates : UInt32) : Nat :=
  if c.subnetSize = 0 then 0
  else
    let costPerNode := httpOutcallRequestBaseCost
      + httpOutcallRequestPerNodeCost * c.subnetSize
      + httpOutcallRequestCostPerByte * (httpOutcallRequestOverheadBytes + requestBytes.toUInt64)
      + canisterOverhead
    c.serviceFee.toNat + costPerNode.toNat * (c.subnetSize * duplicates.toUInt64).toNat

def httpOutcallResponseCost (c : Calculator) (responseBytes duplicates : UInt32) : Nat :=
  if c.subnetSize = 0 then 0
  else
    let costPerNode := httpOutcallResponseCostPerByte * responseBytes.toUInt64
    costPerNode.toNat * (c.subnetSize * duplicates.toUInt64).toNat

end Calculator

theorem product_fits (a b c : UInt64) : c.toNat + a.toNat * b.toNat < 2 ^ 128 := by
  have first := a.toNat_lt
  have second := b.toNat_lt
  have third := c.toNat_lt
  have product : a.toNat * b.toNat ≤ (2 ^ 64 - 1) * (2 ^ 64 - 1) :=
    Nat.mul_le_mul (by omega) (by omega)
  omega

theorem ingress_cost_fits (c : Calculator) (bytes : UInt32) : c.ingressCost bytes < 2 ^ 128 := by
  unfold Calculator.ingressCost
  split
  · omega
  · have fits := product_fits (ingressMessageReceivedCost +
      ingressMessageByteReceivedCost * bytes.toUInt64) c.subnetSize 0
    simpa using fits

theorem request_cost_fits (c : Calculator) (bytes duplicates : UInt32) :
    c.httpOutcallRequestCost bytes duplicates < 2 ^ 128 := by
  unfold Calculator.httpOutcallRequestCost
  split
  · omega
  · exact product_fits _ _ _

theorem response_cost_fits (c : Calculator) (bytes duplicates : UInt32) :
    c.httpOutcallResponseCost bytes duplicates < 2 ^ 128 := by
  unfold Calculator.httpOutcallResponseCost
  split
  · omega
  · have fits := product_fits (httpOutcallResponseCostPerByte * bytes.toUInt64)
      (c.subnetSize * duplicates.toUInt64) 0
    simpa using fits

end CycleCosts
