import Switchboard.Address.Reader
import Switchboard.Address.Writer
import Switchboard.Proofs.Text.Cuts

/-!
# Parameters are read back

A query is cut into parts at every `&`, and a part into key and value at its first `=`. What is read
from a query keeps clear of these marks and has no blanks around it, so the text that is written for
it is cut at the same places again.
-/

namespace Switchboard

namespace Parameters

/-- Parameters without entries are the empty ones. -/
theorem eq_empty {p : Parameters} (h : p.entries = []) : p = empty := by
  obtain ⟨_, _⟩ := p
  cases h
  rfl

private theorem mem_entries_insert {p : Parameters} {key value : String} {entry : String × String}
    (h : entry ∈ (p.insert key value).entries) : entry = (key, value) ∨ entry ∈ p.entries := by
  unfold insert at h
  split at h
  · obtain ⟨old, hold, heq⟩ := List.mem_map.mp h
    unfold overwrite at heq
    split at heq
    · exact .inl heq.symm
    · exact .inr (heq ▸ hold)
  · simpa [or_comm] using h

/-- Only what was given stands in a list of parameters. -/
theorem mem_of_mem_entries_ofList {entries : List (String × String)} {entry : String × String}
    (h : entry ∈ (ofList entries).entries) : entry ∈ entries := by
  have hfold : ∀ (entries : List (String × String)) (p : Parameters),
      entry ∈ (entries.foldl (fun p e => p.insert e.1 e.2) p).entries →
        entry ∈ p.entries ∨ entry ∈ entries := by
    intro entries
    induction entries with
    | nil => exact fun p h => .inl h
    | cons e rest ih =>
      intro p h
      rcases ih _ h with h | h
      · rcases mem_entries_insert h with h | h
        · exact .inr (by simp [h])
        · exact .inl h
      · exact .inr (by simp [h])
  rcases hfold entries empty h with h | h
  · cases h
  · exact h

/-- Keys that are all different are taken over as they come. -/
theorem ofList_entries (p : Parameters) : ofList p.entries = p := by
  have hfold : ∀ (entries : List (String × String)) (q : Parameters),
      (q.keys ++ entries.map Prod.fst).Nodup →
        (entries.foldl (fun p e => p.insert e.1 e.2) q).entries = q.entries ++ entries := by
    intro entries
    induction entries with
    | nil => simp
    | cons e rest ih =>
      intro q h
      have hnew : e.1 ∉ q.keys := by
        intro hm
        exact (List.nodup_append.mp h).2.2 _ hm _ (by simp) rfl
      have hinsert : (q.insert e.1 e.2).entries = q.entries ++ [e] := by
        rw [insert, dif_neg hnew]
      have hkeys : (q.insert e.1 e.2).keys = q.keys ++ [e.1] := by
        rw [keys, hinsert, List.map_append]
        rfl
      rw [List.foldl_cons, ih, hinsert, List.append_assoc]
      · rfl
      · rw [hkeys]
        simpa using h
  have hentries : (ofList p.entries).entries = p.entries :=
    hfold p.entries empty (by simpa [keys, empty] using p.nodup_keys)
  generalize ofList p.entries = q at hentries
  obtain ⟨_, _⟩ := q
  obtain ⟨_, _⟩ := p
  cases hentries
  rfl

end Parameters

namespace Address

/-- A pair of key and value as it is written. -/
def pairText (entry : String × String) : List Char := entry.1.toList ++ '=' :: entry.2.toList

/-- A pair that is read back from what is written for it: no mark is in the way, and no blank
around it. -/
structure IsPlainPair (entry : String × String) : Prop where
  key : '=' ∉ entry.1.toList
  pair : '&' ∉ pairText entry
  start : Text.StartsPlain (pairText entry)
  stop : Text.EndsPlain (pairText entry)

/-- A part of a query is a pair as it is written, but for a part without a value. -/
theorem isPlainPair_readParameter {part : List Char} (hne : part ≠ []) (hmark : '&' ∉ part)
    (hstart : Text.StartsPlain part) (hend : Text.EndsPlain part) :
    IsPlainPair (readParameter part) := by
  unfold readParameter
  cases hcut : Text.cutAt '=' part with
  | some cut =>
    obtain ⟨key, value⟩ := cut
    have hpair : pairText (String.ofList key, String.ofList value) = part := by
      simp [pairText, Text.eq_of_cutAt hcut]
    constructor
    · simpa using Text.not_mem_of_cutAt hcut
    · rwa [hpair]
    · rwa [hpair]
    · rwa [hpair]
  | none =>
    have hpair : pairText (String.ofList part, String.ofList part) = part ++ '=' :: part := by
      simp [pairText]
    constructor
    · simpa using Text.cutAt_eq_none_iff.mp hcut
    · rw [hpair]
      simp [hmark]
    · rw [hpair]
      intro c hc
      obtain ⟨d, r, rfl⟩ := List.exists_cons_of_ne_nil hne
      exact hstart c hc
    · rw [hpair]
      intro c hc
      obtain ⟨d, r, rfl⟩ := List.exists_cons_of_ne_nil hne
      apply hend c
      rw [List.getLast?_append, List.getLast?_cons_cons] at hc
      simpa [List.getLast?_cons] using hc

/-- A pair is read back. -/
theorem readParameter_pairText {entry : String × String} (h : '=' ∉ entry.1.toList) :
    readParameter (pairText entry) = entry := by
  simp [readParameter, pairText, Text.cutAt_append h]

/-- Whatever is read from a query is read back. -/
theorem isPlainPair_of_mem_readParameters {query : List Char} {entry : String × String}
    (h : entry ∈ (readParameters query).entries) : IsPlainPair entry := by
  obtain ⟨part, hpart, rfl⟩ := List.mem_map.mp (Parameters.mem_of_mem_entries_ofList h)
  obtain ⟨hpart, hne⟩ := List.mem_filter.mp hpart
  obtain ⟨piece, hpiece, rfl⟩ := List.mem_map.mp hpart
  apply isPlainPair_readParameter
  · simpa using hne
  · intro hm
    exact Text.not_mem_of_mem_pieces hpiece (Text.mem_of_mem_trim hm)
  · exact Text.startsPlain_trim _
  · exact Text.endsPlain_trim _

/-- Parameters are read back from their pairs with `&` between them. -/
theorem readParameters_join {p : Parameters} (hne : p.entries ≠ [])
    (h : ∀ entry, entry ∈ p.entries → IsPlainPair entry) :
    readParameters (Text.join ['&'] (p.entries.map pairText)) = p := by
  have hpieces : Text.pieces '&' (Text.join ['&'] (p.entries.map pairText)) =
      p.entries.map pairText := by
    apply Text.pieces_join (by simpa using hne)
    intro part hpart
    obtain ⟨entry, hentry, rfl⟩ := List.mem_map.mp hpart
    exact (h entry hentry).pair
  have htrim : (p.entries.map pairText).map Text.trim = p.entries.map pairText := by
    rw [List.map_map]
    apply List.map_congr_left
    intro entry hentry
    exact Text.trim_of_plain (h entry hentry).start (h entry hentry).stop
  have hfilter : (p.entries.map pairText).filter (fun part => !part.isEmpty) =
      p.entries.map pairText := by
    apply List.filter_eq_self.mpr
    intro part hpart
    obtain ⟨entry, -, rfl⟩ := List.mem_map.mp hpart
    simp [pairText]
  have hread : (p.entries.map pairText).map readParameter = p.entries := by
    rw [List.map_map]
    conv => rhs; rw [← List.map_id p.entries]
    apply List.map_congr_left
    intro entry hentry
    exact readParameter_pairText (h entry hentry).key
  rw [readParameters, hpieces, htrim, hfilter, hread, Parameters.ofList_entries]

/-- Parameters are written as their pairs with `&` between them. -/
theorem toList_parametersText (separator : String) {entries : List (String × String)}
    (hne : entries ≠ []) : (parametersText separator entries).toList =
      separator.toList ++ Text.join ['&'] (entries.map pairText) := by
  induction entries generalizing separator with
  | nil => exact absurd rfl hne
  | cons entry rest ih =>
    cases rest with
    | nil => simp [parametersText, pairText, Text.join]
    | cons next rest =>
      rw [parametersText, String.toList_append, ih "&" (by simp)]
      simp [pairText, Text.join]

/-- No blank ends the text of parameters. -/
theorem endsPlain_parametersText {separator : String} (hseparator : Text.EndsPlain separator.toList)
    {entries : List (String × String)} (h : ∀ entry, entry ∈ entries → IsPlainPair entry) :
    Text.EndsPlain (parametersText separator entries).toList := by
  induction entries generalizing separator with
  | nil => intro c hc; cases hc
  | cons entry rest ih =>
    have htext : (parametersText separator (entry :: rest)).toList =
        separator.toList ++ (pairText entry ++ (parametersText "&" rest).toList) := by
      simp [parametersText, pairText]
    rw [htext]
    apply Text.endsPlain_append fun _ => hseparator
    apply Text.endsPlain_append fun _ => (h entry (by simp)).stop
    apply ih _ fun e he => h e (by simp [he])
    intro c hc
    cases hc
    decide

end Address

end Switchboard
