import Switchboard.Proofs.Board.Lasting

/-!
# Looked up keys that are read again

Reading keys again asks the backend for one key after the other. A key with an answer holds just the
addresses of the answer from then on, and stays even if there are none; a key without one keeps what
it held. No key has anything to do with another, so the order in which they are read is all the
same, and so is what others do meanwhile that leaves the registry and the caches alone.
-/

namespace Switchboard

namespace CacheEntries

/-- Takes over what was answered for a key; without an answer the key keeps what it holds. -/
def reread (answer : String → Outcome (List Address)) (e : CacheEntries) (key : String) :
    CacheEntries :=
  match answer key with
  | .ok found => (e.replace key (found.map Address.text)).2
  | .error _ => e

variable {answer : String → Outcome (List Address)} {e : CacheEntries} {key : String}
  {keys : List String} {found : List Address} {f : Failure}

private theorem getElem?_reread_of_ne {other : String} (h : other ≠ key) :
    (e.reread answer key)[other]? = e[other]? := by
  unfold reread
  split
  · rw [replace, Std.ExtTreeMap.getElem?_insert, if_neg]
    exact mt Std.LawfulEqCmp.compare_eq_iff_eq.mp (Ne.symm h)
  · rfl

private theorem getElem?_reread_self (h : answer key = .ok found) :
    (e.reread answer key)[key]? = some (.ofList (found.map Address.text)) := by
  rw [reread, h]
  exact Std.ExtTreeMap.getElem?_insert_self

private theorem reread_of_error (h : answer key = .error f) : e.reread answer key = e := by
  rw [reread, h]

/-- Keys that are not read again hold what they held. -/
theorem getElem?_foldl_reread_of_notMem (h : key ∉ keys) :
    (keys.foldl (reread answer) e)[key]? = e[key]? := by
  induction keys generalizing e with
  | nil => rfl
  | cons next rest ih =>
    rw [List.mem_cons, not_or] at h
    rw [List.foldl_cons, ih h.2, getElem?_reread_of_ne h.1]

/-- Keys without an answer hold what they held. -/
theorem getElem?_foldl_reread_of_error (h : answer key = .error f) :
    (keys.foldl (reread answer) e)[key]? = e[key]? := by
  induction keys generalizing e with
  | nil => rfl
  | cons next rest ih =>
    rw [List.foldl_cons, ih]
    by_cases hkey : key = next
    · rw [← hkey, reread_of_error h]
    · exact getElem?_reread_of_ne hkey

/-- Keys with an answer hold just that, wherever they stand among those that are read again. -/
theorem getElem?_foldl_reread_of_ok (h : answer key = .ok found) (hmem : key ∈ keys) :
    (keys.foldl (reread answer) e)[key]? = some (.ofList (found.map Address.text)) := by
  induction keys generalizing e with
  | nil => cases hmem
  | cons next rest ih =>
    rw [List.foldl_cons]
    by_cases hrest : key ∈ rest
    · exact ih hrest
    · obtain rfl := (List.mem_cons.mp hmem).resolve_right hrest
      rw [getElem?_foldl_reread_of_notMem hrest, getElem?_reread_self h]

end CacheEntries

namespace Board

variable {r : Nat} {b b' b'' : Board} {keys : List String}

/-- What the backend of a registry has to say about a key. -/
def foundAt (b : Board) (r : Nat) (key : String) : Outcome (List Address) :=
  match (b.registry r).backend with
  | .member m _ => m.discover b.coordinator key
  | .standIn answers =>
    match answers[key]? with
    | none => .error (.registry ("nothing at " ++ key))
    | some (_, outcome) => outcome

/-- A registry has read keys again: its cache has taken over what was found, and nothing else that
lasts has changed. -/
structure Rereads (r : Nat) (keys : List String) (b b' : Board) : Prop where
  /-- The tree, the log and the sessions. -/
  coordinator : b'.coordinator = b.coordinator
  /-- The registry. -/
  registry : (b'.registry r).lasting = (b.registry r).lasting
  /-- How many caches there are at least. -/
  caches : b.caches.size ≤ b'.caches.size
  /-- The texts in every cache. -/
  entries : ∀ i, (b'.cache i).entries =
    if (b.registry r).cache = i then keys.foldl (.reread (b.foundAt r)) (b.cache i).entries
    else (b.cache i).entries

private theorem Undisturbed.rereads (h : b.Undisturbed r b') : b.Rereads r [] b' where
  coordinator := h.coordinator
  registry := h.registry
  caches := h.caches
  entries i := by
    rw [h.entries, List.foldl_nil, ite_self]

private theorem Rereads.cache_eq (h : b.Rereads r keys b') :
    (b'.registry r).cache = (b.registry r).cache := by
  have hlasting := congrArg Registry.cache h.registry
  exact hlasting

private theorem foundAt_congr (hcoordinator : b'.coordinator = b.coordinator)
    (hregistry : (b'.registry r).lasting = (b.registry r).lasting) :
    b'.foundAt r = b.foundAt r := by
  have hbackend : (b'.registry r).backend = (b.registry r).backend := by
    have hlasting := congrArg Registry.backend hregistry
    exact hlasting
  unfold foundAt
  rw [hbackend, hcoordinator]

/-- Some keys after others. -/
theorem Rereads.append {more : List String} (h : b.Rereads r keys b') (h' : b'.Rereads r more b'') :
    b.Rereads r (keys ++ more) b'' where
  coordinator := h'.coordinator.trans h.coordinator
  registry := h'.registry.trans h.registry
  caches := Nat.le_trans h.caches h'.caches
  entries i := by
    rw [h'.entries, h.entries, h.cache_eq, foundAt_congr h.coordinator h.registry,
      List.foldl_append]
    split <;> rfl

end Board

namespace Op

open Routine Board

variable {r : Nat} {b b' : Board} {steps : List (Board × Board)} {key : String}

/-- A backend that is asked says what it has to say, and nothing that lasts changes. -/
theorem foundAt_of_discover {outcome : Outcome (List Address)}
    (h : Trail (discover r key) steps outcome) (hleads : Leads (Undisturbed r) b steps b') :
    outcome = b.foundAt r key ∧ b.Undisturbed r b' := by
  refine ⟨?_, hleads.throughout .trans (keeps_discover overlooks_undisturbed _ _ h)⟩
  obtain ⟨_, _, _, hlook, hrest, rfl⟩ := trail_bind_iff.mp h
  obtain ⟨looked, rfl, rfl⟩ := trail_look_iff.mp hlook
  obtain ⟨hlooked, hleads⟩ := hleads
  rw [← foundAt_congr hlooked.coordinator hlooked.registry]
  unfold foundAt
  cases hbackend : (looked.registry r).backend with
  | member m holders =>
    rw [hbackend] at hrest
    obtain ⟨asked, rfl, rfl⟩ := trail_look_iff.mp hrest
    rw [hleads.1.coordinator]
  | standIn answers =>
    rw [hbackend] at hrest
    obtain ⟨_, _, _, -, hanswer, -⟩ := trail_bind_iff.mp hrest
    cases hkey : answers[key]? with
    | none =>
      rw [hkey] at hanswer
      simpa only [hkey] using (trail_pure_iff.mp hanswer).2
    | some answer =>
      rw [hkey] at hanswer
      obtain ⟨_, _, _, -, hpure, -⟩ := trail_bind_iff.mp hanswer
      simpa only [hkey] using (trail_pure_iff.mp hpure).2

/-- Reads one key of a registry again. -/
def refreshKey (r : Nat) (key : String) : Op Unit := do
  match ← discover r key with
  | .error _ => pure ()
  | .ok found =>
    let cache ← look fun b => (b.registry r).cache
    let _ ← changeCache cache fun c => c.replace key found

private theorem refreshKeys_cons (r : Nat) (key : String) (rest : List String) :
    refreshKeys r (key :: rest) = refreshKey r key >>= fun _ => refreshKeys r rest := by
  rw [refreshKeys, refreshKey, LawfulMonad.bind_assoc]
  refine congrArg (discover r key >>= ·) (funext fun outcome => ?_)
  cases outcome with
  | error f => rfl
  | ok found => simp only [LawfulMonad.bind_assoc, pure_bind]

private theorem passes_refreshKeys (r : Nat) (keys : List String) :
    Passes (refreshKeys r keys) := by
  induction keys with
  | nil => exact passes_pure ()
  | cons key rest ih =>
    rw [refreshKeys_cons]
    refine Passes.bind (passes_discover.bind fun outcome => ?_) fun _ => ih
    cases outcome with
    | error f => exact passes_pure ()
    | ok found =>
      refine (passes_look _).bind fun cache => ?_
      exact (passes_savingChanges _ _).bind fun _ => passes_pure ()

/-- One key that is read again. -/
theorem rereads_of_refreshKey (hcache : (b.registry r).cache < b.caches.size)
    (h : Trail (refreshKey r key) steps ()) (hleads : Leads (Undisturbed r) b steps b') :
    b.Rereads r [key] b' := by
  obtain ⟨outcome, asking, taking, hdiscover, hrest, rfl⟩ := trail_bind_iff.mp h
  obtain ⟨mid, hasking, htaking⟩ := (leads_append .refl .trans).mp hleads
  obtain ⟨rfl, hmid⟩ := foundAt_of_discover hdiscover hasking
  cases hfound : b.foundAt r key with
  | error f =>
    rw [hfound] at hrest
    obtain ⟨rfl, -⟩ := trail_pure_iff.mp hrest
    have hend : b.Undisturbed r b' := hmid.trans htaking
    refine { hend with entries := fun i => ?_ }
    rw [hend.entries, List.foldl_cons, List.foldl_nil, CacheEntries.reread_of_error hfound,
      ite_self]
  | ok found =>
    rw [hfound] at hrest
    obtain ⟨_, _, _, hlook, hchange, rfl⟩ := trail_bind_iff.mp hrest
    obtain ⟨looked, rfl, rfl⟩ := trail_look_iff.mp hlook
    obtain ⟨_, _, _, hsaving, hpure, rfl⟩ := trail_bind_iff.mp hchange
    obtain ⟨rfl, -⟩ := trail_pure_iff.mp hpure
    obtain ⟨hlooked, htaking⟩ := htaking
    rw [List.append_nil] at htaking
    have hbefore := hmid.trans hlooked
    rw [hbefore.cache_eq] at hsaving
    obtain ⟨before, hfrom, -, hend⟩ :=
      leads_savingChanges overlooks_undisturbed .trans hsaving htaking
    have hall := hbefore.trans hfrom
    have hentries := hall.entries_changeCache hend hcache
      (fun c c' hsame => by simp only [Cache.replace, Cache.changed, hsame])
    refine ⟨hend.coordinator.trans hall.coordinator, hend.registry.trans hall.registry,
      Nat.le_trans hall.caches ?_, fun i => ?_⟩
    · have hsize := hend.caches
      rwa [Board.changeCache, Array.size_setIfInBounds] at hsize
    · rw [hentries, List.foldl_cons, List.foldl_nil]
      split
      · next hi =>
        rw [← hi, CacheEntries.reread, hfound]
        rfl
      · rfl

/-- Keys that are read again, one after the other. -/
theorem rereads_of_refreshKeys {keys : List String} (hcache : (b.registry r).cache < b.caches.size)
    (h : Trail (refreshKeys r keys) steps ()) (hleads : Leads (Undisturbed r) b steps b') :
    b.Rereads r keys b' := by
  induction keys generalizing b steps with
  | nil =>
    obtain ⟨rfl, -⟩ := trail_pure_iff.mp h
    exact hleads.rereads
  | cons key rest ih =>
    rw [refreshKeys_cons] at h
    obtain ⟨_, first, later, hfirst, hlater, rfl⟩ := trail_bind_iff.mp h
    obtain ⟨mid, hmid, hend⟩ := (leads_append .refl .trans).mp hleads
    have hkey := rereads_of_refreshKey hcache hfirst hmid
    refine hkey.append (ih ?_ hlater hend)
    rw [hkey.cache_eq]
    exact Nat.lt_of_lt_of_le hcache hkey.caches

/-- Reads every looked up key of a registry again, in some order. -/
def refreshInOrder (order : List String → List String) (r : Nat) : Op Unit := do
  let keys ← look fun b => (b.registry r).lookedUp.toList
  refreshKeys r (order keys)

private theorem refresh_eq (r : Nat) : refresh r = refreshInOrder id r := rfl

/-- Whatever a cache holds, whichever keys were looked up, whatever the backend has to say about
each, and in whichever order they are read: they are all read, and then a looked up key holds just
the addresses that were found, be there none, or what it held if it could not be read; and nothing
else that any cache knows has changed. -/
theorem refreshed_keys {order : List String → List String} (horder : ∀ keys, (order keys).Perm keys)
    (hcache : (b.registry r).cache < b.caches.size) :
    refresh r = refreshInOrder id r ∧
    (∃ steps b', Trail (refreshInOrder order r) steps () ∧ Leads Eq b steps b') ∧
    ∀ steps b', Trail (refreshInOrder order r) steps () → Leads (Undisturbed r) b steps b' →
      let before := (b.cache (b.registry r).cache).entries
      let after := (b'.cache (b.registry r).cache).entries
      (∀ key ∈ (b.registry r).lookedUp, ∀ found, b.foundAt r key = .ok found →
        after[key]? = some (.ofList (found.map Address.text))) ∧
      (∀ key ∈ (b.registry r).lookedUp, ∀ f, b.foundAt r key = .error f →
        after[key]? = before[key]?) ∧
      (∀ key, key ∉ (b.registry r).lookedUp → after[key]? = before[key]?) ∧
      ∀ i ≠ (b.registry r).cache, (b'.cache i).entries = (b.cache i).entries := by
  refine ⟨refresh_eq r, ?_, fun steps b' h hleads => ?_⟩
  · obtain ⟨steps, _, b', h, hleads⟩ :=
      (passes_look _).bind (fun keys => passes_refreshKeys r (order keys)) b
    exact ⟨steps, b', h, hleads⟩
  · obtain ⟨_, _, _, hlook, hread, rfl⟩ := trail_bind_iff.mp h
    obtain ⟨looked, rfl, rfl⟩ := trail_look_iff.mp hlook
    obtain ⟨hlooked, hleads⟩ := hleads
    have hkeys : (looked.registry r).lookedUp = (b.registry r).lookedUp := by
      have hlasting := congrArg Registry.lookedUp hlooked.registry
      exact hlasting
    have hlater : (looked.registry r).cache < looked.caches.size := by
      rw [hlooked.cache_eq]
      exact Nat.lt_of_lt_of_le hcache hlooked.caches
    have hentries := (hlooked.rereads.append (rereads_of_refreshKeys hlater hread hleads)).entries
    have hmem : ∀ key, key ∈ order (looked.registry r).lookedUp.toList ↔
        key ∈ (b.registry r).lookedUp := by
      intro key
      rw [(horder _).mem_iff, hkeys, Std.ExtTreeSet.mem_toList]
    intro before after
    have hafter : after = _ := (hentries _).trans (if_pos rfl)
    refine ⟨fun key hkey found hfound => ?_, fun key hkey f hfailed => ?_, fun key hkey => ?_,
      fun i hi => ?_⟩
    · rw [hafter]
      exact CacheEntries.getElem?_foldl_reread_of_ok hfound ((hmem key).mpr hkey)
    · rw [hafter]
      exact CacheEntries.getElem?_foldl_reread_of_error hfailed
    · rw [hafter]
      exact CacheEntries.getElem?_foldl_reread_of_notMem (mt (hmem key).mp hkey)
    · rw [hentries, if_neg hi.symm]

/-- A board whose one registry looked up two keys, of which one has no addresses any more and the
other one cannot be read. -/
def halfDown : Board where
  caches := #[{ entries := (((∅ : CacheEntries).add "/s" "h:1/s").2.add "/t" "h:1/t").2 }]
  registries := #[{
    lookedUp := .ofList ["/s", "/t"]
    backend := .standIn (.ofList
      [("/s", 5, Except.ok []), ("/t", 5, Except.error (Failure.registry "down"))]) }]

/-- The key without addresses stays, and the one that cannot be read keeps what it holds, when the
keys are read from the last to the first. -/
theorem refreshed_keys_of_halfDown :
    ∃ steps b', Trail (refreshInOrder List.reverse 0) steps () ∧ Leads Eq halfDown steps b' ∧
      (b'.cache 0).entries["/s"]? = some ∅ ∧
      (b'.cache 0).entries["/t"]? = some (.ofList ["h:1/t"]) ∧
      (b'.cache 0).entries["/u"]? = none := by
  have hcache : (halfDown.registry 0).cache < halfDown.caches.size := by decide
  obtain ⟨-, ⟨steps, b', htrail, hleads⟩, hrefreshed⟩ :=
    refreshed_keys (r := 0) List.reverse_perm hcache
  obtain ⟨hfound, hfailed, hother, -⟩ := hrefreshed steps b' htrail (hleads.mono .of_eq)
  refine ⟨steps, b', htrail, hleads, ?_, ?_, ?_⟩
  · exact hfound "/s" (by decide +kernel) [] rfl
  · refine (hfailed "/t" (by decide +kernel) (.registry "down") rfl).trans ?_
    decide +kernel
  · refine (hother "/u" (by decide +kernel)).trans ?_
    decide +kernel

end Op

end Switchboard
