import IdempotentProxy.Foundations.ExpiringStore

/-!
The Redis back end, `cache/redis.rs`, over a keyspace in which a key vanishes when
its ttl has elapsed. A command may fail: with the connection lost before the
server ran it, or after, when only the reply is lost. The failure's text is the
client library's.
-/
namespace RedisCache
open ExpiringStore

abbrev Bytes := List UInt8
abbrev Keyspace := Store String Bytes

inductive Fault where
  | none
  | lost (text : String)
  | executed (text : String)
  deriving DecidableEq

/-- Send a command whose execution would leave `ran.1` and reply `ran.2`. -/
def command {α : Type} (fault : Fault) (ks : Keyspace) (ran : Keyspace × α) :
    Keyspace × Except String α :=
  match fault with
  | .none => (ran.1, .ok ran.2)
  | .lost text => (ks, .error text)
  | .executed text => (ran.1, .error text)

/-- The value `obtain` stores: one byte, shorter than any response. -/
def obtained : Bytes := [0]

/-- `SET key 0 NX PX ttl` -/
def obtain (ks : Keyspace) (key : String) (ttl now : Nat) (fault : Fault) :
    Keyspace × Except String Bool :=
  command fault ks (putIfAbsent ks now key (now + ttl) obtained)

def pollTurn (ks : Keyspace) (key : String) (now : Nat) (fault : Fault) :
    Except String (Option Bytes) :=
  match (command fault ks (ks, (live ks now key).map Prod.snd)).2 with
  | .error text => .error text
  | .ok none => .error "not obtained"
  | .ok (some bs) => .ok (if bs.length > 1 then some bs else none)

/-- `SET key val XX PX ttl` -/
def set (ks : Keyspace) (key : String) (val : Bytes) (ttl now : Nat) (fault : Fault) :
    Keyspace × Except String Bool :=
  command fault ks (putIfPresent ks now key (now + ttl) val)

def del (ks : Keyspace) (key : String) (fault : Fault) : Keyspace × Except String Unit :=
  command fault ks (remove ks key, ())

end RedisCache
