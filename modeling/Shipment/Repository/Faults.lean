import Shipment.Backend

/-!
# Faults

A fault answers a call in the place of the surroundings, which then see nothing
of it.  It is meant for certain calls and counts them.  It strikes at one of
them, or at every one if its number is zero.  Of several faults that could
strike the first one does.
-/

namespace Shipment

/-- A planned answer. -/
structure Fault where
  /-- The calls it is meant for. -/
  meant : Call → Bool
  /-- At which of them it strikes, counted from one.  Zero is every one. -/
  nth : Nat
  /-- What it answers. -/
  reply : (c : Call) → Except Failure c.Answer
  /-- How many of them were made. -/
  seen : Nat := 0

namespace Fault

/-- Count a call. -/
def count (c : Call) (f : Fault) : Fault :=
  if f.meant c then { f with seen := f.seen + 1 } else f

/-- Whether a fault that has counted a call strikes at it. -/
def strikes (c : Call) (f : Fault) : Bool := f.meant c && (f.nth == 0 || f.nth == f.seen)

end Fault

namespace Handler

variable {σ : Type}

/-- Surroundings with faults. -/
def withFaults (h : Handler shipping σ) : Handler shipping (List Fault × σ) := fun c s =>
  let faults := s.1.map (Fault.count c)
  match faults.find? (Fault.strikes c) with
  | some f => (f.reply c, faults, s.2)
  | none =>
      let out := h c s.2
      (out.1, faults, out.2)

end Handler

end Shipment
