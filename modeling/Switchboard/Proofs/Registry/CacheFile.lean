import Std.Data.ExtTreeMap.Lemmas
import Std.Data.ExtTreeSet.Lemmas
import Switchboard.Proofs.Properties.RoundTrip
import Switchboard.Registry.Cache

/-!
# The file of a cache

Texts that blanks separate are read back as long as they are words themselves. A file that was
written from entries stands for just these entries if all their texts are words, and only then; and
whatever a file stands for has such texts.
-/

namespace Switchboard

namespace Text

/-- A text that blanks leave whole: not empty, and without blanks. -/
def IsWord (s : List Char) : Prop := s ≠ [] ∧ ∀ c, c ∈ s → isBlank c = false

private theorem wordsFrom_append {s : List Char} (h : ∀ c, c ∈ s → isBlank c = false)
    (word rest : List Char) : wordsFrom word (s ++ rest) = wordsFrom (s.reverse ++ word) rest := by
  induction s generalizing word with
  | nil => rfl
  | cons c r ih =>
    have hc := h c (by simp)
    simp only [List.cons_append, wordsFrom, hc, Bool.false_eq_true, if_false]
    rw [ih fun d hd => h d (by simp [hd])]
    simp

private theorem words_append {s : List Char} (h : IsWord s) (rest : List Char) :
    words (s ++ ' ' :: rest) = s :: words rest := by
  unfold words
  rw [wordsFrom_append h.2]
  have hblank : isBlank ' ' = true := by decide
  have hempty : (s.reverse ++ []).isEmpty = false := by simp [h.1]
  simp only [wordsFrom, hblank, if_true, hempty, Bool.false_eq_true, if_false]
  simp

private theorem words_of_isWord {s : List Char} (h : IsWord s) : words s = [s] := by
  have hread := wordsFrom_append h.2 [] []
  have hempty : (s.reverse ++ []).isEmpty = false := by simp [h.1]
  rw [List.append_nil] at hread
  simp only [words, hread, wordsFrom, hempty, Bool.false_eq_true, if_false]
  simp

/-- Words with blanks between them are read back. -/
theorem words_intercalate {ss : List (List Char)} (h : ∀ s, s ∈ ss → IsWord s) :
    words ([' '].intercalate ss) = ss := by
  induction ss with
  | nil => rfl
  | cons s rest ih =>
    have hs := h s (by simp)
    cases rest with
    | nil => simpa [List.intercalate] using words_of_isWord hs
    | cons t rest =>
      have hjoin : [' '].intercalate (s :: t :: rest) =
          s ++ ' ' :: [' '].intercalate (t :: rest) := by
        simp [List.intercalate, List.intersperse]
      rw [hjoin, words_append hs, ih fun u hu => h u (by simp [hu])]

private theorem isWord_of_mem_wordsFrom {word s t : List Char}
    (hword : ∀ c, c ∈ word → isBlank c = false) (ht : t ∈ wordsFrom word s) : IsWord t := by
  have hfinished : t ∈ (if word.isEmpty then [] else [word.reverse]) → IsWord t := by
    cases word with
    | nil => intro hm; cases hm
    | cons d w =>
      intro hm
      simp only [List.isEmpty_cons, Bool.false_eq_true, if_false, List.mem_singleton] at hm
      subst hm
      exact ⟨by simp, fun c hc => hword c (List.mem_reverse.mp hc)⟩
  induction s generalizing word with
  | nil => exact hfinished ht
  | cons c r ih =>
    simp only [wordsFrom] at ht
    split at ht
    · rcases List.mem_append.mp ht with ht | ht
      · exact hfinished ht
      · exact ih (by simp) ht (by intro hm; cases hm)
    · next hc =>
      have hword' : ∀ d, d ∈ c :: word → isBlank d = false := by
        intro d hd
        rcases List.mem_cons.mp hd with rfl | hd
        · simpa using hc
        · exact hword d hd
      refine ih hword' ht ?_
      intro hm
      simp only [List.isEmpty_cons, Bool.false_eq_true, if_false, List.mem_singleton] at hm
      subst hm
      exact ⟨by simp, fun d hd => hword' d (List.mem_reverse.mp hd)⟩

/-- Whatever blanks separate is a word. -/
theorem isWord_of_mem_words {s t : List Char} (h : t ∈ words s) : IsWord t :=
  isWord_of_mem_wordsFrom (by simp) h

end Text

namespace CacheEntries

/-- Every text is a word, so that blanks can separate it from its neighbours. -/
def Legible (e : CacheEntries) : Prop :=
  ∀ (key : String) (texts : Std.ExtTreeSet String), e[key]? = some texts →
    ∀ t : String, t ∈ texts → Text.IsWord t.toList

/-- Texts with blanks between them are read back. -/
theorem textsOf_intercalate {texts : Std.ExtTreeSet String}
    (h : ∀ t : String, t ∈ texts → Text.IsWord t.toList) :
    textsOf (String.intercalate " " texts.toList) = texts := by
  have hwords : ∀ s, s ∈ texts.toList.map String.toList → Text.IsWord s := by
    intro s hs
    obtain ⟨t, ht, rfl⟩ := List.mem_map.mp hs
    exact h t (Std.ExtTreeSet.mem_toList.mp ht)
  unfold textsOf
  rw [String.toList_intercalate]
  change Std.ExtTreeSet.ofList ((Text.words ([' '].intercalate _)).map String.ofList) _ = _
  rw [Text.words_intercalate hwords, List.map_map]
  apply Std.ExtTreeSet.ext_mem
  intro t
  simp [Std.ExtTreeSet.mem_ofList]

private theorem foldl_insert (entries : List (String × String)) (e : CacheEntries) :
    entries.foldl (fun e entry => e.insert entry.1 (textsOf entry.2)) e =
      e.insertMany (entries.map fun entry => (entry.1, textsOf entry.2)) := by
  induction entries generalizing e with
  | nil => simp
  | cons entry rest ih =>
    rw [List.foldl_cons, ih, List.map_cons, Std.ExtTreeMap.insertMany_cons]

private theorem insertMany_toList (e : CacheEntries) :
    (∅ : CacheEntries).insertMany e.toList = e := by
  apply Std.ExtTreeMap.ext_getElem?
  intro key
  cases h : e[key]? with
  | some texts =>
    apply Std.ExtTreeMap.getElem?_insertMany_list_of_mem Std.ReflCmp.compare_self
    · exact e.distinct_keys_toList
    · exact Std.ExtTreeMap.mem_toList_iff_getElem?_eq_some.mpr h
  | none =>
    have hnot : ¬ (e.toList.map Prod.fst).contains key = true := by
      rw [Std.ExtTreeMap.map_fst_toList_eq_keys, List.contains_iff_mem, Std.ExtTreeMap.mem_keys,
        Std.ExtTreeMap.mem_iff_isSome_getElem?, h]
      simp
    rw [Std.ExtTreeMap.getElem?_insertMany_list_of_contains_eq_false (by simpa using hnot)]
    simp

/-- A file that was written from entries stands for the words of their texts, under the same
keys. -/
theorem ofFile_render_eq_map (e : CacheEntries) {stamp : String} (hstamp : '\n' ∉ stamp.toList) :
    ofFile (e.render stamp) =
      e.map fun _ texts => textsOf (String.intercalate " " texts.toList) := by
  unfold ofFile render
  rw [Properties.parse_render _ hstamp, foldl_insert]
  have hentries : e.joined.map (fun entry => (entry.1, textsOf entry.2)) =
      (e.map fun _ texts => textsOf (String.intercalate " " texts.toList)).toList := by
    rw [Std.ExtTreeMap.toList_map, joined, List.map_map]
    rfl
  rw [hentries, insertMany_toList]

/-- The file that was written from entries stands for just these. -/
theorem ofFile_render {e : CacheEntries} (h : e.Legible) {stamp : String}
    (hstamp : '\n' ∉ stamp.toList) : ofFile (e.render stamp) = e := by
  rw [ofFile_render_eq_map e hstamp]
  apply Std.ExtTreeMap.ext_getElem?
  intro key
  rw [Std.ExtTreeMap.getElem?_map]
  cases hget : e[key]? with
  | none => rfl
  | some texts => rw [Option.map_some, textsOf_intercalate (h key texts hget)]

/-- Putting words under a key keeps entries legible. -/
theorem Legible.insert {e : CacheEntries} (h : e.Legible) (key : String)
    {texts : Std.ExtTreeSet String} (ht : ∀ t : String, t ∈ texts → Text.IsWord t.toList) :
    Legible (e.insert key texts) := by
  intro key' texts' hget t hmem
  rw [Std.ExtTreeMap.getElem?_insert] at hget
  split at hget
  · cases hget
    exact ht t hmem
  · exact h key' texts' hget t hmem

/-- Nothing is illegible where nothing is. -/
theorem legible_empty : Legible ∅ := by
  intro key texts hget
  simp at hget

/-- Whatever a file stands for is legible. -/
theorem legible_ofBytes (content : Option Bytes) : Legible (ofBytes content) := by
  cases content with
  | none => exact legible_empty
  | some bytes =>
    have hfold : ∀ (entries : List (String × String)) (e : CacheEntries), e.Legible →
        Legible (entries.foldl (fun e entry => e.insert entry.1 (textsOf entry.2)) e) := by
      intro entries
      induction entries with
      | nil => exact fun e h => h
      | cons entry rest ih =>
        intro e h
        apply ih
        apply h.insert
        intro t ht
        simp only [textsOf, Std.ExtTreeSet.mem_ofList, List.contains_iff_mem, List.mem_map] at ht
        obtain ⟨w, hw, rfl⟩ := ht
        rw [String.toList_ofList]
        exact Text.isWord_of_mem_words hw
    exact hfold _ _ legible_empty

/-- The bytes that were written from entries stand for just these. -/
theorem ofBytes_encode_render {e : CacheEntries} (h : e.Legible) {stamp : String}
    (hstamp : '\n' ∉ stamp.toList) :
    ofBytes (some (Text.Utf8.encode (e.render stamp).toList)) = e := by
  simp only [ofBytes]
  rw [Text.Utf8.decodeLossy_encode, String.ofList_toList, ofFile_render h hstamp]

/-- The bytes that were written from entries stand for just these if and only if every text is a
word, and a key without any text is read back in any case. -/
theorem ofBytes_encode_render_eq_iff (e : CacheEntries) {stamp : String}
    (hstamp : '\n' ∉ stamp.toList) :
    (ofBytes (some (Text.Utf8.encode (e.render stamp).toList)) = e ↔ e.Legible) ∧
      ∀ key : String, e[key]? = some ∅ →
        (ofBytes (some (Text.Utf8.encode (e.render stamp).toList)))[key]? = some ∅ := by
  refine ⟨⟨fun heq => ?_, fun h => ofBytes_encode_render h hstamp⟩, fun key hkey => ?_⟩
  · -- whatever a file stands for is legible
    rw [← heq]
    exact legible_ofBytes _
  · rw [ofBytes, Text.Utf8.decodeLossy_encode, String.ofList_toList, ofFile_render_eq_map e hstamp,
      Std.ExtTreeMap.getElem?_map, hkey, Option.map_some]
    refine congrArg some (textsOf_intercalate fun t ht => ?_)
    simp at ht

/-- A text with a blank inside is read back as two, and the key without any text beside it as it
was. -/
theorem ofBytes_encode_render_ne_of_blank :
    let e : CacheEntries := .ofList [("/s", Std.ExtTreeSet.ofList ["a b"]), ("/t", ∅)]
    let read := ofBytes (some (Text.Utf8.encode (e.render "now").toList))
    '\n' ∉ "now".toList ∧ read ≠ e ∧ read["/t"]? = some ∅ := by
  intro e read
  have hstamp : '\n' ∉ "now".toList := by decide
  have hs : e["/s"]? = some (.ofList ["a b"]) := by decide +kernel
  have ht : e["/t"]? = some ∅ := by decide +kernel
  obtain ⟨hiff, hempty⟩ := ofBytes_encode_render_eq_iff e hstamp
  refine ⟨hstamp, fun heq => ?_, hempty "/t" ht⟩
  have hword := hiff.mp heq "/s" _ hs "a b" (by simp)
  have hblank := hword.2 ' ' (by decide)
  revert hblank
  decide

end CacheEntries

end Switchboard
