import Mathlib.Data.List.Nodup
import Mathlib.Data.List.Perm.Subperm
import Mathlib.Tactic.Choose
import Switchboard.Proofs.Registry.Gates

/-!
# How many look-ups of one key ask the backend at once

Past one gate there is one look-up at a time. A look-up that leaves a gate without having brought
the key into the cache takes the gate out of the registry all the same, so a newcomer makes a
second gate while the next of those who wait goes on at the first. Every failure makes room for one
more question at once.

By `SPEC_FULL.md`, section 4.4, a miss asks the backend once.
-/

namespace Switchboard.Lookups

namespace Scene

/-- Whether a look-up may have left a gate while the cache lacks the key: somebody asked in vain
there, or others took the key out of the cache. -/
def Excuses (s : Scene) (key : String) (gate : Nat) : Prop :=
  (key, gate) ∈ s.failures ∨ key ∈ s.lapsed

end Scene

/-- What is so of the key and the gate of a look-up at a stage. -/
def Stage.Fits (s : Scene) : Stage → Prop
  | waiting key gate | admitted key gate =>
    s.isCached key = true ∨ s.registry.gates[key]? = some gate ∨ s.Excuses key gate
  | asking key gate => s.registry.gates[key]? = some gate ∨ s.Excuses key gate
  | answered key gate | left key gate => s.isCached key = true ∨ s.Excuses key gate
  | idle | missed _ | told .. => True

/-- A scene that look-ups from an empty cache have led to. -/
structure Scene.Sound (s : Scene) : Prop where
  /-- Whoever is past a gate has it. -/
  holder_of_closed : ∀ c gate, (s.stage c).closed? = some gate → s.holder gate = some c
  fits : ∀ c, (s.stage c).Fits s
  /-- Nobody asks past a gate that was left, unless the one who left it is excused. -/
  excuses_of_left : ∀ c d key gate,
    s.stage c = .asking key gate → s.stage d = .left key gate → s.Excuses key gate

/-- A new scene is sound. -/
theorem Scene.sound_empty : Scene.Sound {} := by
  constructor <;> simp [Stage.closed?, Stage.Fits]

variable {s : Scene}

/-- What fits goes on to fit while gates stay, and while nothing is lost without an excuse. -/
theorem Stage.Fits.mono {s' : Scene} {stage : Stage} (h : stage.Fits s)
    (hcached : ∀ key, s.isCached key = true → s'.isCached key = true ∨ key ∈ s'.lapsed)
    (hgate : ∀ (key : String) (gate : Nat), s.registry.gates[key]? = some gate →
      s'.registry.gates[key]? = some gate)
    (hexcuse : ∀ key gate, s.Excuses key gate → s'.Excuses key gate) : stage.Fits s' := by
  have hkeep : ∀ key gate, s.isCached key = true → s'.isCached key = true ∨ s'.Excuses key gate :=
    fun key _ hc => (hcached key hc).imp_right .inr
  cases stage with
  | idle | missed _ | told _ _ _ => trivial
  | waiting key gate | admitted key gate =>
    rcases h with hc | hg | he
    · exact (hkeep key gate hc).imp_right .inr
    · exact .inr (.inl (hgate key gate hg))
    · exact .inr (.inr (hexcuse key gate he))
  | asking key gate => exact h.imp (hgate key gate) (hexcuse key gate)
  | answered key gate | left key gate =>
    rcases h with hc | he
    · exact hkeep key gate hc
    · exact .inr (hexcuse key gate he)

/-- Replacing what the cache has under a key brings the key there, and leaves the others. -/
theorem isSome_addresses_replace (c : Cache) (key other : String) (found : List Address) :
    ((c.replace key found).2.addresses other).isSome =
      (other == key || (c.addresses other).isSome) := by
  simp only [Cache.addresses, Cache.replace, Cache.changed, CacheEntries.replace,
    Option.isSome_map, Std.ExtTreeMap.getElem?_insert]
  by_cases h : key = other
  · subst h
    simp
  · have hcompare : compare key other ≠ .eq := mt Std.LawfulEqCmp.compare_eq_iff_eq.mp h
    rw [if_neg hcompare]
    simp [Ne.symm h]

/-- A key that a change takes out of the cache has lapsed. -/
theorem isCached_or_mem_lapsed (change : Cache.Change) {key : String}
    (h : s.isCached key = true) :
    (s.after (.change change)).isCached key = true ∨ key ∈ (s.after (.change change)).lapsed := by
  by_cases hnew : (s.after (.change change)).isCached key = true
  · exact .inl hnew
  · refine .inr (List.mem_append_left _ (List.mem_filter.mpr ⟨?_, ?_⟩))
    · have hmem : s.cache.entries[key]?.isSome = true := by
        simpa [Scene.isCached, Cache.addresses] using h
      exact Std.ExtTreeMap.mem_keys.mpr (Std.ExtTreeMap.mem_iff_isSome_getElem?.mpr hmem)
    · simpa [Scene.isCached, Scene.after] using hnew

namespace Scene.Sound

/-- One thread comes to another stage, and what the others rely on stays. -/
theorem move {s' : Scene} (h : Sound s) {c : CallId} {stage : Stage}
    (hstage : s'.stage = Function.update s.stage c stage)
    (hothers : ∀ d gate, d ≠ c → s.holder gate = some d → s'.holder gate = some d)
    (hown : ∀ gate, stage.closed? = some gate → s'.holder gate = some c)
    (hfit : ∀ d, d ≠ c → (s.stage d).Fits s')
    (hfits : stage.Fits s')
    (hexcuse : ∀ key gate, s.Excuses key gate → s'.Excuses key gate)
    (hasking : ∀ key gate d, stage = .asking key gate → s.stage d = .left key gate →
      s'.Excuses key gate)
    (hleft : ∀ key gate d, stage = .left key gate → d ≠ c → s.stage d ≠ .asking key gate) :
    Sound s' := by
  have hself : s'.stage c = stage := by rw [hstage, Function.update_self]
  have hother : ∀ d, d ≠ c → s'.stage d = s.stage d := fun d hd => by
    rw [hstage, Function.update_of_ne hd]
  refine ⟨fun d gate hclosed => ?_, fun d => ?_, fun d e key gate hd he => ?_⟩
  · by_cases hdc : d = c
    · subst hdc
      exact hown gate (hself ▸ hclosed)
    · exact hothers d gate hdc (h.holder_of_closed d gate (hother d hdc ▸ hclosed))
  · by_cases hdc : d = c
    · subst hdc
      rwa [hself]
    · rw [hother d hdc]
      exact hfit d hdc
  · by_cases hdc : d = c
    · subst hdc
      have hed : e ≠ d := by
        rintro rfl
        cases hd.symm.trans he
      exact hasking key gate e (hself.symm.trans hd) (hother e hed ▸ he)
    · rw [hother d hdc] at hd
      by_cases hec : e = c
      · subst hec
        exact absurd hd (hleft key gate d (hself.symm.trans he) hdc)
      · exact hexcuse key gate (h.excuses_of_left d e key gate hd (hother e hec ▸ he))

variable (h : Sound s) (c : CallId)

include h

private theorem lookUp (key : String) : Sound (s.after (.lookUp c key)) := by
  simp only [Scene.after]
  split
  · split
    · exact h
    · exact h.move rfl (fun _ _ _ hd => hd) (by rintro _ ⟨⟩) (fun d _ => h.fits d) trivial
        (fun _ _ he => he) (by rintro _ _ _ ⟨⟩) (by rintro _ _ _ ⟨⟩)
  · exact h

/-- The gate that a look-up takes is the one of its key. -/
theorem take : Sound (s.after (.take c)) := by
  simp only [Scene.after]
  split
  · next key hc =>
    have hgate : ∀ (key' : String) (gate : Nat), s.registry.gates[key']? = some gate →
        (s.registry.gateOf key).2.gates[key']? = some gate := by
      intro key' gate hg
      unfold Registry.gateOf
      split
      · exact hg
      · next hnone =>
        have hne : key ≠ key' := by
          rintro rfl
          cases hnone.symm.trans hg
        rw [Std.ExtTreeMap.getElem?_insert, if_neg (by simpa using hne)]
        exact hg
    have hown : (s.registry.gateOf key).2.gates[key]? = some (s.registry.gateOf key).1 := by
      unfold Registry.gateOf
      split
      · assumption
      · exact Std.ExtTreeMap.getElem?_insert_self
    exact h.move rfl (fun _ _ _ hd => hd) (by rintro _ ⟨⟩)
      (fun d _ => (h.fits d).mono (fun _ hk => .inl hk) hgate fun _ _ he => he)
      (.inr (.inl hown)) (fun _ _ he => he) (by rintro _ _ _ ⟨⟩) (by rintro _ _ _ ⟨⟩)
  · exact h

/-- Whoever passes a gate finds nobody past it. -/
theorem enter : Sound (s.after (.enter c)) := by
  simp only [Scene.after]
  split
  · next key gate hc =>
    split
    · next hopen =>
      refine h.move rfl (fun d gate' _ hd => ?_) (fun gate' hclosed => ?_) (fun d _ => h.fits d) ?_
        (fun _ _ he => he) (by rintro _ _ _ ⟨⟩) (by rintro _ _ _ ⟨⟩)
      · have hne : gate' ≠ gate := by
          rintro rfl
          cases hopen.symm.trans hd
        exact (Function.update_of_ne hne _ _).trans hd
      · cases hclosed
        exact Function.update_self ..
      · have hfits := h.fits c
        rwa [hc] at hfits
    · exact h
  · exact h

/-- Whoever begins to ask does so past the gate of the key, or is excused. -/
theorem check : Sound (s.after (.check c)) := by
  simp only [Scene.after]
  split
  · next key gate hc =>
    have hfits : (Stage.admitted key gate).Fits s := hc ▸ h.fits c
    have hholder : s.holder gate = some c := h.holder_of_closed c gate (by rw [hc]; rfl)
    by_cases hcached : s.isCached key = true
    · rw [if_pos hcached]
      refine h.move rfl (fun _ _ _ hd => hd) (fun gate' hclosed => ?_) (fun d _ => h.fits d)
        (.inl hcached) (fun _ _ he => he) (by rintro _ _ _ ⟨⟩) (by rintro _ _ _ ⟨⟩)
      cases hclosed
      exact hholder
    · rw [if_neg hcached]
      refine h.move rfl (fun _ _ _ hd => hd) (fun gate' hclosed => ?_) (fun d _ => h.fits d)
        (hfits.resolve_left hcached) (fun _ _ he => he) (fun key' gate' d hstage hd => ?_)
        (by rintro _ _ _ ⟨⟩)
      · cases hclosed
        exact hholder
      · cases hstage
        have hleft : (Stage.left key gate).Fits s := hd ▸ h.fits d
        exact hleft.resolve_left hcached
  · exact h

/-- Who asked in vain is excused. -/
theorem answer (outcome : Outcome (List Address)) : Sound (s.after (.answer c outcome)) := by
  simp only [Scene.after]
  split
  · next key gate found hc =>
    have hholder : s.holder gate = some c := h.holder_of_closed c gate (by rw [hc]; rfl)
    refine h.move rfl (fun _ _ _ hd => hd) (fun gate' hclosed => ?_) (fun d _ => h.fits d) trivial
      (fun _ _ he => he) (by rintro _ _ _ ⟨⟩) (by rintro _ _ _ ⟨⟩)
    cases hclosed
    exact hholder
  · next key gate f hc =>
    have hholder : s.holder gate = some c := h.holder_of_closed c gate (by rw [hc]; rfl)
    have hexcuse : ∀ key' gate', s.Excuses key' gate' →
        (key', gate') ∈ (key, gate) :: s.failures ∨ key' ∈ s.lapsed :=
      fun _ _ he => he.imp_left (List.mem_cons_of_mem _)
    refine h.move rfl (fun _ _ _ hd => hd) (fun gate' hclosed => ?_)
      (fun d _ => (h.fits d).mono (fun _ hk => .inl hk) (fun _ _ hg => hg) hexcuse)
      (.inr (.inl List.mem_cons_self)) hexcuse (by rintro _ _ _ ⟨⟩) (by rintro _ _ _ ⟨⟩)
    cases hclosed
    exact hholder
  · exact h

/-- Who was told the addresses leaves them in the cache. -/
theorem keep : Sound (s.after (.keep c)) := by
  simp only [Scene.after]
  split
  · next key gate found hc =>
    have hholder : s.holder gate = some c := h.holder_of_closed c gate (by rw [hc]; rfl)
    have hcached : ∀ key', s.isCached key' = true →
        ((s.cache.replace key found).2.addresses key').isSome = true := by
      intro key' hk
      rw [isSome_addresses_replace, Bool.or_eq_true]
      exact .inr hk
    have hown : ((s.cache.replace key found).2.addresses key).isSome = true := by
      rw [isSome_addresses_replace, beq_self_eq_true, Bool.true_or]
    refine h.move rfl (fun _ _ _ hd => hd) (fun gate' hclosed => ?_)
      (fun d _ => (h.fits d).mono (fun key' hk => .inl (hcached key' hk)) (fun _ _ hg => hg)
        fun _ _ he => he)
      (.inl hown) (fun _ _ he => he) (by rintro _ _ _ ⟨⟩) (by rintro _ _ _ ⟨⟩)
    cases hclosed
    exact hholder
  · exact h

/-- Whoever leaves a gate was the only one past it. -/
theorem leave : Sound (s.after (.leave c)) := by
  simp only [Scene.after]
  split
  · next key gate hc =>
    have hholder : s.holder gate = some c := h.holder_of_closed c gate (by rw [hc]; rfl)
    have hfits : (Stage.answered key gate).Fits s := hc ▸ h.fits c
    refine h.move rfl (fun d gate' hdc hd => ?_) (by rintro _ ⟨⟩) (fun d _ => h.fits d) hfits
      (fun _ _ he => he) (by rintro _ _ _ ⟨⟩) (fun key' gate' d hstage hdc hd => ?_)
    · have hne : gate' ≠ gate := by
        rintro rfl
        exact hdc (Option.some.inj (hd.symm.trans hholder))
      exact (Function.update_of_ne hne _ _).trans hd
    · cases hstage
      have hd' : s.holder gate = some d := h.holder_of_closed d gate (by rw [hd]; rfl)
      exact hdc (Option.some.inj (hd'.symm.trans hholder))
  · exact h

/-- Whoever takes a gate out of the registry brought the key into the cache, or is excused. -/
theorem forget : Sound (s.after (.forget c)) := by
  simp only [Scene.after]
  split
  · next key gate hc =>
    have hfits : (Stage.left key gate).Fits s := hc ▸ h.fits c
    -- A gate that stays in the registry is another one, or the one of another key.
    have hgate : ∀ (key' : String) (gate' : Nat), s.registry.gates[key']? = some gate' →
        (s.registry.forgetGate key gate).gates[key']? = some gate' ∨ key' = key ∧ gate' = gate := by
      intro key' gate' hg
      unfold Registry.forgetGate
      split
      · next hmine =>
        by_cases hkey : key = key'
        · subst hkey
          exact .inr ⟨rfl, Option.some.inj (hg.symm.trans hmine)⟩
        · rw [Std.ExtTreeMap.getElem?_erase, if_neg (by simpa using hkey)]
          exact .inl hg
      · exact .inl hg
    refine h.move rfl (fun _ _ _ hd => hd) (by rintro _ ⟨⟩) (fun d _ => ?_) trivial
      (fun _ _ he => he) (by rintro _ _ _ ⟨⟩) (by rintro _ _ _ ⟨⟩)
    have hd := h.fits d
    cases hstage : s.stage d with
    | idle | missed _ | told _ _ _ => trivial
    | waiting key' gate' | admitted key' gate' =>
      rw [hstage] at hd
      rcases hd with hk | hg | he
      · exact .inl hk
      · rcases hgate key' gate' hg with hg' | ⟨rfl, rfl⟩
        · exact .inr (.inl hg')
        · exact hfits.imp_right .inr
      · exact .inr (.inr he)
    | asking key' gate' =>
      rw [hstage] at hd
      rcases hd with hg | he
      · rcases hgate key' gate' hg with hg' | ⟨rfl, rfl⟩
        · exact .inl hg'
        · exact .inr (h.excuses_of_left d c key' gate' hstage hc)
      · exact .inr he
    | answered key' gate' | left key' gate' =>
      rw [hstage] at hd
      exact hd
  · exact h

/-- Keys that others take out of the cache are an excuse. -/
theorem change (change : Cache.Change) : Sound (s.after (.change change)) := by
  have hexcuse : ∀ key gate, s.Excuses key gate →
      (s.after (.change change)).Excuses key gate :=
    fun _ _ he => he.imp_right (List.mem_append_right _)
  exact ⟨h.holder_of_closed,
    fun d => (h.fits d).mono (fun _ => isCached_or_mem_lapsed change) (fun _ _ hg => hg) hexcuse,
    fun d e key gate hd he => hexcuse key gate (h.excuses_of_left d e key gate hd he)⟩

omit c

/-- Every act leaves the scene sound. -/
theorem after (act : Act) : Sound (s.after act) := by
  cases act with
  | lookUp c key => exact h.lookUp c key
  | take c => exact h.take c
  | enter c => exact h.enter c
  | check c => exact h.check c
  | answer c outcome => exact h.answer c outcome
  | keep c => exact h.keep c
  | leave c => exact h.leave c
  | forget c => exact h.forget c
  | change change => exact h.change change

/-- Every run leaves the scene sound. -/
theorem run (acts : List Act) : Sound (s.run acts) := by
  induction acts generalizing s with
  | nil => exact h
  | cons act rest ih => exact ih (h.after act)

omit h

/-- The scene of a new registry is sound after every run. -/
theorem ofActs (acts : List Act) : Sound (Scene.ofActs acts) := sound_empty.run acts

/-- Two look-ups that ask past one gate are the same. -/
theorem eq_of_asking (h : Sound s) {c d : CallId} {key key' : String} {gate : Nat}
    (hc : s.stage c = .asking key gate) (hd : s.stage d = .asking key' gate) : c = d := by
  have hholder : s.holder gate = some c := h.holder_of_closed c gate (by rw [hc]; rfl)
  have hholder' : s.holder gate = some d := h.holder_of_closed d gate (by rw [hd]; rfl)
  exact Option.some.inj (hholder.symm.trans hholder')

/-- Each look-up that asks has a gate of its own: the one in the registry, or one where somebody
asked in vain. -/
theorem length_le_failed (h : Sound s) {key : String} (hkey : key ∉ s.lapsed)
    {calls : List CallId} (hnodup : calls.Nodup) (hasking : ∀ c ∈ calls, s.IsAsking key c) :
    calls.length ≤ s.failed key + 1 := by
  choose! gate hgate using hasking
  have hdistinct : (calls.map gate).Nodup :=
    hnodup.map_on fun c hc d hd heq => h.eq_of_asking (hgate c hc) (heq ▸ hgate d hd)
  have hknown : calls.map gate ⊆
      s.registry.gates[key]?.toList ++ (s.failures.filter (·.1 == key)).map Prod.snd := by
    intro g hg
    obtain ⟨c, hc, rfl⟩ := List.mem_map.mp hg
    have hfits : (Stage.asking key (gate c)).Fits s := hgate c hc ▸ h.fits c
    rw [List.mem_append, Option.mem_toList]
    rcases hfits with hcurrent | hfailed | hlapsed
    · exact .inl hcurrent
    · exact .inr (List.mem_map.mpr ⟨_, List.mem_filter.mpr ⟨hfailed, beq_self_eq_true key⟩, rfl⟩)
    · exact absurd hlapsed hkey
  calc calls.length = (calls.map gate).length := (List.length_map ..).symm
    _ ≤ (s.registry.gates[key]?.toList ++
          (s.failures.filter (·.1 == key)).map Prod.snd).length :=
        (List.subperm_of_subset hdistinct hknown).length_le
    _ = s.registry.gates[key]?.toList.length + s.failed key := by
        rw [List.length_append, List.length_map, failed, List.countP_eq_length_filter]
    _ ≤ s.failed key + 1 := by
        have : s.registry.gates[key]?.toList.length ≤ 1 := Option.length_toList_le
        omega

end Scene.Sound

/-! ### Every failure makes room for one more -/

namespace Scene

/-- A round of two look-ups of a key: the first asks in vain while the second waits at its gate and
goes on to ask, and the first takes that gate out of the registry. -/
def roundOf (key : String) (n : Nat) : List Act :=
  [.lookUp (2 * n) key, .lookUp (2 * n + 1) key, .take (2 * n), .take (2 * n + 1),
    .enter (2 * n), .check (2 * n), .answer (2 * n) (.error (.registry "down")), .leave (2 * n),
    .enter (2 * n + 1), .check (2 * n + 1), .forget (2 * n)]

/-- A look-up of a key that comes to ask, if nobody is before it at the gate. -/
def newcomerOf (key : String) (c : CallId) : List Act :=
  [.lookUp c key, .take c, .enter c, .check c]

/-- The scene after some rounds: the second look-up of each asks, past a gate that is no longer the
one of the key. -/
structure Crowded (key : String) (n : Nat) (s : Scene) : Prop where
  lapsed_eq : s.lapsed = []
  failed_eq : s.failed key = n
  isCached_eq : s.isCached key = false
  gate_eq : s.registry.gates[key]? = none
  holder_eq : ∀ gate, s.registry.gatesMade ≤ gate → s.holder gate = none
  idle : ∀ c, 2 * n ≤ c → s.stage c = .idle
  asking : ∀ i, i < n → s.IsAsking key (2 * i + 1)

private theorem crowded_empty (key : String) : Crowded key 0 {} := by
  constructor <;> simp [failed, isCached, Cache.addresses]

/-- One more round leaves one more look-up asking. -/
theorem Crowded.round {key : String} {n : Nat} (h : Crowded key n s) :
    Crowded key (n + 1) (s.run (roundOf key n)) := by
  have hfirst : s.stage (2 * n) = .idle := h.idle _ (Nat.le_refl _)
  have hsecond : s.stage (2 * n + 1) = .idle := h.idle _ (Nat.le_succ _)
  have hopen : s.holder s.registry.gatesMade = none := h.holder_eq _ (Nat.le_refl _)
  have hmiss : ¬ (s.cache.addresses key).isSome = true := by
    simpa [isCached] using h.isCached_eq
  have hrun : s.run (roundOf key n) =
      { s with
        registry := { s.registry with
          gates := (s.registry.gates.insert key s.registry.gatesMade).erase key
          gatesMade := s.registry.gatesMade + 1 }
        holder := Function.update s.holder s.registry.gatesMade (some (2 * n + 1))
        stage := Function.update s.stage (2 * n + 1) (.asking key s.registry.gatesMade)
        failures := (key, s.registry.gatesMade) :: s.failures } := by
    simp [run, roundOf, Scene.after, move, isCached, hfirst, hsecond, hmiss, hopen,
      Registry.gateOf, h.gate_eq, Registry.forgetGate]
    funext c
    by_cases hc : c = 2 * n
    · subst hc
      simp [hfirst]
    · by_cases hc' : c = 2 * n + 1 <;> simp [hc, hc']
  rw [hrun]
  refine ⟨h.lapsed_eq, ?_, h.isCached_eq, Std.ExtTreeMap.getElem?_erase_self, fun gate hgate => ?_,
    fun c hc => ?_, fun i hi => ?_⟩
  · simp only [failed, List.countP_cons, beq_self_eq_true, if_true]
    exact congrArg (· + 1) h.failed_eq
  · have hne : gate ≠ s.registry.gatesMade := Nat.ne_of_gt hgate
    exact (Function.update_of_ne hne _ _).trans (h.holder_eq gate (Nat.le_of_succ_le hgate))
  · have hne : c ≠ 2 * n + 1 := by omega
    exact (Function.update_of_ne hne _ _).trans (h.idle c (by omega))
  · by_cases hin : i = n
    · subst hin
      exact ⟨_, Function.update_self ..⟩
    · obtain ⟨gate, hgate⟩ := h.asking i (by omega)
      have hne : 2 * i + 1 ≠ 2 * n + 1 := by omega
      exact ⟨gate, (Function.update_of_ne hne _ _).trans hgate⟩

/-- As many rounds as wanted can go before. -/
theorem exists_crowded (key : String) (n : Nat) : ∃ acts, Crowded key n (ofActs acts) := by
  induction n with
  | zero => exact ⟨[], crowded_empty key⟩
  | succ n ih =>
    obtain ⟨acts, hacts⟩ := ih
    refine ⟨acts ++ roundOf key n, ?_⟩
    rw [ofActs, run, List.foldl_append]
    exact hacts.round

/-- A newcomer asks as well, past a gate that it makes. -/
theorem Crowded.newcomer {key : String} {n : Nat} (h : Crowded key n s) :
    let s' := s.run (newcomerOf key (2 * n))
    s'.lapsed = [] ∧ s'.failed key = n ∧ s'.IsAsking key (2 * n) ∧
      ∀ i, i < n → s'.IsAsking key (2 * i + 1) := by
  have hidle : s.stage (2 * n) = .idle := h.idle _ (Nat.le_refl _)
  have hopen : s.holder s.registry.gatesMade = none := h.holder_eq _ (Nat.le_refl _)
  have hmiss : ¬ (s.cache.addresses key).isSome = true := by
    simpa [isCached] using h.isCached_eq
  have hrun : s.run (newcomerOf key (2 * n)) =
      { s with
        registry := { s.registry with
          gates := s.registry.gates.insert key s.registry.gatesMade
          gatesMade := s.registry.gatesMade + 1 }
        holder := Function.update s.holder s.registry.gatesMade (some (2 * n))
        stage := Function.update s.stage (2 * n) (.asking key s.registry.gatesMade) } := by
    simp [run, newcomerOf, Scene.after, move, isCached, hidle, hmiss, hopen, Registry.gateOf,
      h.gate_eq]
  simp only [hrun]
  refine ⟨h.lapsed_eq, h.failed_eq, ⟨_, Function.update_self ..⟩, fun i hi => ?_⟩
  obtain ⟨gate, hgate⟩ := h.asking i hi
  have hne : 2 * i + 1 ≠ 2 * n := by omega
  exact ⟨gate, (Function.update_of_ne hne _ _).trans hgate⟩

/-- Just as many look-ups of a key can ask the backend at once as asked in vain before, and one
more, unless others take the key out of the cache. -/
theorem exists_asking_iff (key : String) (n m : Nat) :
    (∃ (acts : List Act) (calls : List CallId),
      (ofActs acts).failed key = n ∧ key ∉ (ofActs acts).lapsed ∧ calls.Nodup ∧
        calls.length = m ∧ ∀ c ∈ calls, (ofActs acts).IsAsking key c) ↔
      m ≤ n + 1 := by
  constructor
  · rintro ⟨acts, calls, rfl, hlapsed, hnodup, rfl, hasking⟩
    exact (Sound.ofActs acts).length_le_failed hlapsed hnodup hasking
  · intro hm
    obtain ⟨acts, hacts⟩ := exists_crowded key n
    have hsplit : ofActs (acts ++ newcomerOf key (2 * n)) =
        (ofActs acts).run (newcomerOf key (2 * n)) := List.foldl_append ..
    obtain ⟨hlapsed, hfailed, hnew, hold⟩ := hacts.newcomer
    let everyone : List Nat := 2 * n :: (List.range n).map (2 * · + 1)
    have hnodup : everyone.Nodup := by
      refine List.nodup_cons.mpr ⟨fun hmem => ?_, List.nodup_range.map fun i j hij => ?_⟩
      · obtain ⟨i, -, hi⟩ := List.mem_map.mp hmem
        change 2 * i + 1 = 2 * n at hi
        omega
      · change 2 * i + 1 = 2 * j + 1 at hij
        omega
    have hlength : everyone.length = n + 1 := by simp [everyone]
    refine ⟨acts ++ newcomerOf key (2 * n), everyone.take m, ?_, ?_,
      hnodup.sublist (List.take_sublist ..), ?_, ?_⟩
    · rw [hsplit, hfailed]
    · rw [hsplit, hlapsed]
      exact List.not_mem_nil
    · rw [List.length_take, hlength]
      exact Nat.min_eq_left hm
    · intro c hc
      rw [hsplit]
      rcases List.mem_cons.mp (List.mem_of_mem_take hc) with rfl | hmem
      · exact hnew
      · obtain ⟨i, hi, rfl⟩ := List.mem_map.mp hmem
        exact hold i (List.mem_range.mp hi)

end Scene

end Switchboard.Lookups
