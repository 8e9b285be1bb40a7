/-!
# Times and identifiers
-/

namespace TrafficPlatform

/-- Microseconds since 0001-01-01T00:00:00 UTC, the resolution of `datetime`. -/
abbrev Time := Nat

abbrev Uuid := Nat

/-- One second, in microseconds. -/
def second : Time := 1000000

/-- 1970-01-01T00:00:00 UTC. -/
def epoch : Time := 62135596800 * second

/-- `int(t.timestamp())`: seconds since the epoch, truncated towards it. -/
def timestamp (t : Time) : Int := ((t : Int) - epoch).tdiv second

theorem forall_mem_of_all {α : Type} {P : α → Prop} [DecidablePred P] {l : List α}
    (h : (l.all fun a => decide (P a)) = true) :
    ∀ a ∈ l, P a :=
  fun a ha => of_decide_eq_true (List.all_eq_true.1 h a ha)

end TrafficPlatform
