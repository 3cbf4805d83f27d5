import Mathlib.Logic.Function.Basic

/-!
# The idempotency ledger in Redis

`libraries/redis-client/src/idempotency-store.ts`.  A key holds until
`ttlSeconds` after it was last set, so "already processed" means "marked within
the last `ttlSeconds`".  Times are in milliseconds.
-/

namespace RydTrip

structure IdempotencyStore where
  ttlSeconds : Nat
  /-- When `processed:{consumer}:{eventId}` expires, for the keys that were ever set. -/
  expiresAt : String → Nat → Option Nat

namespace IdempotencyStore

/-- The default of `ttlSeconds`. -/
def defaultTtlSeconds : Nat := 24 * 60 * 60

def new (ttlSeconds : Nat) : IdempotencyStore := ⟨ttlSeconds, fun _ _ => none⟩

def wasProcessed (store : IdempotencyStore) (now : Nat) (consumerName : String) (eventId : Nat) :
    Bool :=
  match store.expiresAt consumerName eventId with
  | none => false
  | some deadline => decide (now < deadline)

def markProcessed (store : IdempotencyStore) (now : Nat) (consumerName : String) (eventId : Nat) :
    IdempotencyStore :=
  { store with
    expiresAt := Function.update store.expiresAt consumerName
      (Function.update (store.expiresAt consumerName) eventId
        (some (now + 1000 * store.ttlSeconds))) }

variable {store : IdempotencyStore} {now : Nat} {consumerName : String} {eventId : Nat}

/-- Marking sets one key. -/
theorem expiresAt_markProcessed (eventId' : Nat) :
    (store.markProcessed now consumerName eventId).expiresAt consumerName eventId' =
      if eventId' = eventId then some (now + 1000 * store.ttlSeconds)
      else store.expiresAt consumerName eventId' := by
  unfold markProcessed
  dsimp only
  rw [Function.update_self, Function.update_apply]

/-- A key that was set is found until it expires. -/
theorem wasProcessed_eq_true {deadline : Nat}
    (h : store.expiresAt consumerName eventId = some deadline) (hlt : now < deadline) :
    store.wasProcessed now consumerName eventId = true := by
  unfold wasProcessed
  rw [h]
  exact decide_eq_true hlt

end IdempotencyStore

end RydTrip
