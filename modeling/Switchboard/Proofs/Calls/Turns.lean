import Mathlib.Algebra.BigOperators.Group.Finset.Piecewise
import Mathlib.Data.Int.CardIntervalMod
import Switchboard.RoundRobin

/-!
# Turns are shared out fairly

Callers that share a counter take its numbers one after the other, in whatever order they come, and
each number is a turn of one candidate. The numbers taken lie side by side, so no candidate has more
than one turn more than another, until the counter comes round: its size need not be a multiple of
the number of candidates, and where it starts again the circle may break once.
-/

namespace Switchboard.RoundRobin

/-! ### Turns among the numbers -/

/-- How many of the numbers below a bound are turns of a position, for a counter that comes
round. -/
def share (count position bound : Nat) : Nat :=
  Nat.count (fun n => n % UInt64.size % count = position) bound

private theorem share_zero (count position : Nat) : share count position 0 = 0 := Nat.count_zero _

private theorem share_succ (count position bound : Nat) : share count position (bound + 1) =
    share count position bound + if bound % UInt64.size % count = position then 1 else 0 :=
  Nat.count_succ _ _

/-- Before the counter comes round, a position has a turn in every full circle, and one more if the
circle under way has passed it. -/
theorem share_of_le {count position bound : Nat} (hposition : position < count)
    (hbound : bound ≤ UInt64.size) : share count position bound =
      bound / count + if position < bound % count then 1 else 0 := by
  have hcount := Nat.count_modEq_card bound (Nat.zero_lt_of_lt hposition) position
  rw [Nat.mod_eq_of_lt hposition] at hcount
  rw [← hcount, share, Nat.count_eq_card_filter_range, Nat.count_eq_card_filter_range]
  congr 1
  apply Finset.filter_congr
  intro n hn
  have hlt : n < UInt64.size := Nat.lt_of_lt_of_le (Finset.mem_range.mp hn) hbound
  rw [Nat.mod_eq_of_lt hlt, Nat.ModEq, Nat.mod_eq_of_lt hposition]

/-- Where the counter comes round, the turns are counted anew. -/
theorem share_size_add (count position bound : Nat) : share count position (UInt64.size + bound) =
    share count position UInt64.size + share count position bound := by
  rw [share, Nat.count_add]
  simp only [Nat.add_mod_left]
  rfl

/-- Between any two numbers, two positions have as many turns, give or take one. -/
theorem share_add_share_le {count i j : Nat} (hi : i < count) (hj : j < count) {v w : Nat}
    (hv : v ≤ UInt64.size) (hw : w ≤ UInt64.size) :
    share count i v + share count j w ≤ share count j v + share count i w + 1 := by
  rw [share_of_le hi hv, share_of_le hj hw, share_of_le hj hv, share_of_le hi hw]
  split_ifs <;> omega

/-! ### Callers that share a counter -/

/-- A counter among callers. -/
structure Scene (ι : Type) where
  /-- The counter. -/
  counter : UInt64
  /-- What every caller was given so far: the number of candidates and the position. -/
  given : ι → List (Nat × Nat)

namespace Scene

variable {ι : Type} [DecidableEq ι]

/-- Nobody has picked yet. -/
def start (counter : UInt64) : Scene ι where
  counter
  given := fun _ => []

/-- A caller picks among some candidates, in one step. -/
def pick (s : Scene ι) (caller : ι) (count : Nat) : Scene ι where
  counter := (next s.counter count).2
  given := Function.update s.given caller (s.given caller ++ [(count, (next s.counter count).1)])

/-- The callers pick one after the other. -/
def run (s : Scene ι) (calls : List (ι × Nat)) : Scene ι :=
  calls.foldl (fun s call => s.pick call.1 call.2) s

/-- How often a position among some candidates was given, to whomever. -/
def hits [Fintype ι] (s : Scene ι) (count position : Nat) : Nat :=
  ∑ caller, (s.given caller).count (count, position)

/-- A pick is a hit of the position that was picked. -/
theorem hits_pick [Fintype ι] (s : Scene ι) (caller : ι) (picked count position : Nat) :
    (s.pick caller picked).hits count position = s.hits count position +
      if (picked, (next s.counter picked).1) = (count, position) then 1 else 0 := by
  have hgiven : ∀ other, ((s.pick caller picked).given other).count (count, position) =
      (s.given other).count (count, position) + if other = caller then
        (if (picked, (next s.counter picked).1) = (count, position) then 1 else 0) else 0 := by
    intro other
    by_cases h : other = caller
    · subst h
      simp [pick, List.count_append, List.count_singleton]
    · simp [pick, h]
  simp only [hits, hgiven, Finset.sum_add_distrib, Finset.sum_ite_eq', Finset.mem_univ, if_true]

/-- Every caller is answered once for each of its calls, in their order. -/
theorem map_fst_given_run (s : Scene ι) (calls : List (ι × Nat)) (caller : ι) :
    ((s.run calls).given caller).map Prod.fst =
      (s.given caller).map Prod.fst ++ (calls.filter (·.1 = caller)).map Prod.snd := by
  induction calls generalizing s with
  | nil => simp [run]
  | cons call rest ih =>
    change ((run (s.pick call.1 call.2) rest).given caller).map Prod.fst = _
    rw [ih]
    by_cases h : call.1 = caller
    · simp [pick, h]
    · simp [pick, h, Function.update_of_ne (Ne.symm h)]

/-- What a pick does to a counter that has come to a number: a pick among many takes the number, and
one among at most one takes none. -/
theorem next_eq {counter : UInt64} {n count picked : Nat} (hcount : 2 ≤ count)
    (hpicked : picked = count ∨ picked ≤ 1) (hn : counter.toNat = n % UInt64.size) :
    (picked = count ∧ (next counter picked).1 = n % UInt64.size % count ∧
      (next counter picked).2.toNat = (n + 1) % UInt64.size) ∨
    (picked ≠ count ∧ next counter picked = (0, counter)) := by
  rcases hpicked with rfl | hone
  · have hmany : ¬ picked ≤ 1 := by omega
    refine .inl ⟨rfl, ?_, ?_⟩
    · rw [next, if_neg hmany, hn]
    · rw [next, if_neg hmany, UInt64.toNat_add, hn]
      exact Nat.mod_add_mod ..
  · exact .inr ⟨by omega, by rw [next, if_pos hone]⟩

/-- The calls that pick among a number of candidates. -/
def picksAmong (count : Nat) (calls : List (ι × Nat)) : Nat := calls.countP (·.2 = count)

omit [DecidableEq ι] in
private theorem picksAmong_cons (count : Nat) (call : ι × Nat) (rest : List (ι × Nat)) :
    picksAmong count (call :: rest) =
      (if call.2 = count then 1 else 0) + picksAmong count rest := by
  simp [picksAmong, List.countP_cons, Nat.add_comm]

section Run

variable {s : Scene ι} {n count : Nat}

private theorem toNat_counter_pick {picked : Nat} (hcount : 2 ≤ count)
    (hpicked : picked = count ∨ picked ≤ 1) (hn : s.counter.toNat = n % UInt64.size) (caller : ι) :
    (s.pick caller picked).counter.toNat =
      (n + if picked = count then 1 else 0) % UInt64.size := by
  rcases next_eq hcount hpicked hn with ⟨heq, -, hnext⟩ | ⟨hne, hnext⟩
  · rw [if_pos heq, ← hnext, pick]
  · rw [if_neg hne, pick, hnext, hn, Nat.add_zero]

/-- A pick is a hit of the position whose turn the number is. -/
theorem hits_pick_add_share [Fintype ι] {picked : Nat} (hcount : 2 ≤ count)
    (hpicked : picked = count ∨ picked ≤ 1) (hn : s.counter.toNat = n % UInt64.size) (caller : ι)
    (position : Nat) :
    (s.pick caller picked).hits count position + share count position n =
      s.hits count position + share count position (n + if picked = count then 1 else 0) := by
  rw [hits_pick]
  rcases next_eq hcount hpicked hn with ⟨heq, hnext, -⟩ | ⟨hne, -⟩
  · rw [hnext]
    simp only [heq, Prod.mk.injEq, true_and, if_true, share_succ]
    omega
  · simp only [hne, Prod.mk.injEq, false_and, if_false, Nat.add_zero]

variable {calls : List (ι × Nat)}

/-- In whatever order the callers come, the counter goes on by one for each pick among many. -/
theorem toNat_counter_run (hcount : 2 ≤ count)
    (hcalls : ∀ call ∈ calls, call.2 = count ∨ call.2 ≤ 1)
    (hn : s.counter.toNat = n % UInt64.size) :
    (s.run calls).counter.toNat = (n + picksAmong count calls) % UInt64.size := by
  induction calls generalizing s n with
  | nil => exact hn
  | cons call rest ih =>
    have hpick := toNat_counter_pick hcount (hcalls call (by simp)) hn call.1
    rw [picksAmong_cons, ← Nat.add_assoc]
    exact ih (fun other hother => hcalls other (by simp [hother])) hpick

/-- In whatever order the callers come, a position is hit as often as it has turns among the numbers
that were taken. -/
theorem hits_run_add_share [Fintype ι] (hcount : 2 ≤ count)
    (hcalls : ∀ call ∈ calls, call.2 = count ∨ call.2 ≤ 1)
    (hn : s.counter.toNat = n % UInt64.size) (position : Nat) :
    (s.run calls).hits count position + share count position n =
      s.hits count position + share count position (n + picksAmong count calls) := by
  induction calls generalizing s n with
  | nil => rfl
  | cons call rest ih =>
    have hcall := hcalls call (by simp)
    have hstep := hits_pick_add_share hcount hcall hn call.1 position
    have hpick := toNat_counter_pick hcount hcall hn call.1
    have hrest := ih (fun other hother => hcalls other (by simp [hother])) hpick
    rw [picksAmong_cons, ← Nat.add_assoc]
    change ((s.pick call.1 call.2).run rest).hits count position + share count position n = _
    omega

/-- A position that was picked is one of the candidates', or the first. -/
theorem next_lt_max (counter : UInt64) (picked : Nat) : (next counter picked).1 < max picked 1 := by
  rcases Nat.eq_zero_or_pos picked with rfl | hpos
  · exact Nat.one_pos
  · exact Nat.lt_of_lt_of_le (next_lt hpos) (Nat.le_max_left ..)

/-- Whoever picks is given a position of the candidates, or the first. -/
theorem lt_max_of_mem_given_run
    (h : ∀ caller, ∀ answer ∈ s.given caller, answer.2 < max answer.1 1) (caller : ι) :
    ∀ answer ∈ (s.run calls).given caller, answer.2 < max answer.1 1 := by
  induction calls generalizing s with
  | nil => exact h caller
  | cons call rest ih =>
    refine ih (s := s.pick call.1 call.2) fun other answer hanswer => ?_
    by_cases heq : other = call.1
    · subst heq
      simp only [pick, Function.update_self, List.mem_append, List.mem_singleton] at hanswer
      rcases hanswer with hmem | rfl
      · exact h _ _ hmem
      · exact next_lt_max _ _
    · simp only [pick, Function.update_of_ne heq] at hanswer
      exact h other answer hanswer

end Run

/-- Callers share a counter and pick among the same number of candidates, or among at most one, in
whatever order they come, and they take no more numbers than the counter has. Then every call is
answered once, with a position of the candidates, which is the first if there is at most one; the
counter goes on by the picks among many and by nothing else; and no candidate is picked more often
than another, give or take one, or two if the counter has come round. -/
theorem hits_le_hits_of_run [Fintype ι] (counter : UInt64) {count : Nat} (hcount : 2 ≤ count)
    (calls : List (ι × Nat)) (hcalls : ∀ call ∈ calls, call.2 = count ∨ call.2 ≤ 1)
    (hpicks : picksAmong count calls ≤ 2 ^ 64) :
    let after := (start counter).run calls
    (∀ caller, (after.given caller).map Prod.fst =
      (calls.filter (·.1 = caller)).map Prod.snd) ∧
    (∀ caller, ∀ answer ∈ after.given caller,
      (answer.1 = count → answer.2 < count) ∧ (answer.1 ≤ 1 → answer.2 = 0)) ∧
    after.counter.toNat = (counter.toNat + picksAmong count calls) % 2 ^ 64 ∧
    ∀ i < count, ∀ j < count, after.hits count i ≤ after.hits count j +
      if counter.toNat + picksAmong count calls ≤ 2 ^ 64 then 1 else 2 := by
  intro after
  have hsize : UInt64.size = 2 ^ 64 := rfl
  have hlt : counter.toNat < UInt64.size := counter.toNat_lt
  have hstart : (start counter : Scene ι).counter.toNat = counter.toNat % UInt64.size :=
    (Nat.mod_eq_of_lt hlt).symm
  have hhits : ∀ position, after.hits count position + share count position counter.toNat =
      share count position (counter.toNat + picksAmong count calls) := by
    intro position
    have hnone : (start counter : Scene ι).hits count position = 0 := by simp [hits, start]
    rw [hits_run_add_share hcount hcalls hstart position, hnone, Nat.zero_add]
  refine ⟨fun caller => ?_, fun caller answer hanswer => ?_, ?_, fun i hi j hj => ?_⟩
  · exact map_fst_given_run (start counter) calls caller
  · have hmax :=
      lt_max_of_mem_given_run (s := start counter) (by simp [start]) caller answer hanswer
    omega
  · exact toNat_counter_run hcount hcalls hstart
  · have hfirst := hhits i
    have hsecond := hhits j
    split
    · next hfits =>
      have hwindow := share_add_share_le hi hj (hsize ▸ hfits) hlt.le
      omega
    · next hround =>
      -- the counter comes round once: a whole circle of numbers, less those from what is left to
      -- where it stood at first
      obtain ⟨rest, hrest⟩ := Nat.exists_eq_add_of_le (Nat.le_of_not_le (hsize ▸ hround))
      rw [hrest, share_size_add] at hfirst hsecond
      have hcircle := share_add_share_le hi hj (Nat.le_refl UInt64.size) (Nat.zero_le _)
      have hwindow := share_add_share_le hi hj (v := rest) (by omega) hlt.le
      simp only [share_zero] at hcircle
      omega

/-- A counter that comes round among three candidates: two callers in a row pick the first, and a
pick among one or none between them takes no number. -/
theorem hits_of_counter_that_comes_round :
    let calls : List (Fin 2 × Nat) := [(0, 3), (1, 1), (1, 3), (0, 0)]
    let after := (start 0xFFFFFFFFFFFFFFFF).run calls
    (2 ≤ 3 ∧ (∀ call ∈ calls, call.2 = 3 ∨ call.2 ≤ 1) ∧ picksAmong 3 calls ≤ 2 ^ 64) ∧
      after.counter.toNat = (0xFFFFFFFFFFFFFFFF + picksAmong 3 calls) % 2 ^ 64 ∧
      (∀ i < 3, ∀ j < 3, after.hits 3 i ≤ after.hits 3 j + 2) ∧
      after.hits 3 0 = 2 ∧ after.hits 3 1 = 0 := by
  intro calls after
  have hcalls : ∀ call ∈ calls, call.2 = 3 ∨ call.2 ≤ 1 := by decide
  have hpicks : picksAmong 3 calls ≤ 2 ^ 64 := by decide
  have hrun := hits_le_hits_of_run 0xFFFFFFFFFFFFFFFF (by decide) calls hcalls hpicks
  exact ⟨⟨by decide, hcalls, hpicks⟩, hrun.2.2.1, hrun.2.2.2, by decide, by decide⟩

end Scene

end Switchboard.RoundRobin
