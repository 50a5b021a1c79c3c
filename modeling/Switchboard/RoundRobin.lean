/-!
# Taking turns

A 64-bit counter that wraps around picks one of several candidates after the other.

`next` is `next_index` of `SPEC_FULL.md`, section 4.6.
-/

namespace Switchboard.RoundRobin

/-- The position to use among `count` candidates, and the counter afterwards. With at most one
candidate the counter stays. -/
def next (counter : UInt64) (count : Nat) : Nat × UInt64 :=
  if count ≤ 1 then (0, counter) else (counter.toNat % count, counter + 1)

/-- The positions of successive picks, and the counter after them. -/
def picks (counter : UInt64) : List Nat → List Nat × UInt64
  | [] => ([], counter)
  | count :: rest =>
    let (pick, counter) := next counter count
    let (more, counter) := picks counter rest
    (pick :: more, counter)

/-- A position is a candidate's. -/
theorem next_lt {counter : UInt64} {count : Nat} (h : 0 < count) :
    (next counter count).1 < count := by
  simp only [next]
  split
  · exact h
  · exact Nat.mod_lt _ h

end Switchboard.RoundRobin
