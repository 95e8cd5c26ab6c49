import Mathlib.Data.List.Chain
import Mathlib.Order.Basic

/-!
# Signs of life

A sender is called again and again.  It sends when it has something to send, and
also when nothing has been sent for a while.  If the calls are never far apart and
sending does not take long, what it sends is never far apart either.
-/

namespace KeepAlive

/-- A call at `time`; what it sends, if anything, is done at `done`. -/
structure Arrival where
  time : Nat
  busy : Bool
  done : Nat
  deriving DecidableEq, Repr

/-- Whether a call sends when the last sending was done at `last`. -/
def sends (interval last : Nat) (arrival : Arrival) : Bool :=
  arrival.busy || decide (interval ≤ arrival.time - last)

/-- The calls that send. -/
def sent (interval : Nat) : Nat → List Arrival → List Arrival
  | _, [] => []
  | last, arrival :: arrivals =>
      if sends interval last arrival then
        arrival :: sent interval arrival.done arrivals
      else
        sent interval last arrivals

/-- The calls come one after the other, at most `gap` apart, and sending takes at most
`work`. -/
structure Punctual (gap work : Nat) (arrivals : List Arrival) : Prop where
  gaps : arrivals.IsChain fun first second =>
    first.done ≤ second.time ∧ second.time ≤ first.time + gap
  works : ∀ arrival ∈ arrivals,
    arrival.time ≤ arrival.done ∧ arrival.done ≤ arrival.time + work

variable {interval gap work : Nat} {arrivals : List Arrival}

theorem Punctual.tail {arrival : Arrival} (punctual : Punctual gap work (arrival :: arrivals)) :
    Punctual gap work arrivals where
  gaps := punctual.gaps.tail
  works := fun other isOther => punctual.works other (List.mem_cons_of_mem _ isOther)

/-- Later calls come after what has been sent. -/
theorem Punctual.done_le {arrival : Arrival}
    (punctual : Punctual gap work (arrival :: arrivals)) :
    ∀ later ∈ arrivals, arrival.done ≤ later.time := by
  induction arrivals generalizing arrival with
  | nil => simp
  | cons next arrivals ih =>
      have gaps := punctual.gaps
      rw [List.isChain_cons_cons] at gaps
      have works := punctual.works next (by simp)
      intro later isLater
      rcases List.mem_cons.mp isLater with rfl | isLater
      · exact gaps.1.1
      · exact (gaps.1.1.trans works.1).trans (ih punctual.tail later isLater)

/-- The next call that sends comes soon after one that has sent. -/
theorem Punctual.next_sent {previous : Arrival} {last time : Nat}
    (punctual : Punctual gap work (previous :: arrivals))
    (since : last ≤ time + work)
    (quiet : previous.time ≤ last + interval ∨ previous.time = time) :
    ∀ next ∈ (sent interval last arrivals).head?,
      next.time ≤ time + (work + interval + gap) := by
  induction arrivals generalizing previous with
  | nil => simp [sent]
  | cons arrival arrivals ih =>
      have gaps := punctual.gaps
      rw [List.isChain_cons_cons] at gaps
      rw [sent]
      split_ifs with isSent
      · intro next isNext
        obtain rfl : arrival = next := by simpa using isNext
        omega
      · apply ih punctual.tail
        left
        simp only [sends, Bool.or_eq_true, decide_eq_true_eq, not_or, not_le] at isSent
        omega

theorem sent_isChain (punctual : Punctual gap work arrivals) (last : Nat) :
    (sent interval last arrivals).IsChain fun first second =>
      second.time ≤ first.time + (work + interval + gap) := by
  induction arrivals generalizing last with
  | nil => exact List.IsChain.nil
  | cons arrival arrivals ih =>
      rw [sent]
      split_ifs
      · have works := punctual.works arrival List.mem_cons_self
        rw [List.isChain_cons]
        exact ⟨punctual.next_sent works.2 (Or.inr rfl), ih punctual.tail arrival.done⟩
      · exact ih punctual.tail last

end KeepAlive
