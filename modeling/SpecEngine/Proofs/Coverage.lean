import Mathlib.Data.List.DropRight
import Mathlib.Data.String.Basic
import SpecEngine.Proofs.Tokens

/-!
# Tokens and their places

The tokens of a text stand in it one behind the other, from its first byte to its last, and each
stands where it says: the bytes from its start to its stop are its text, and its line and column
are those of its start.

* `Text.isValid_bytes`, `Text.extract_bytes`: the encoded text at the places between its parts;
* `Place.column_after_first`: columns count from the last line feed;
* `Located.IsSpanOf`: a token that stands in a text where it says;
* `Chained.isChain`, `Chained.stop_of_getLast?`: tokens that stand one behind the other;
* `tokens_cover`: all tokens of a text.
-/

namespace SpecEngine

/-! ### The encoded text -/

namespace Text

theorem bytes_eq_utf8ByteSize (s : List Char) : bytes s = (String.ofList s).utf8ByteSize := by
  rw [String.utf8ByteSize_ofList]
  induction s with
  | nil => rfl
  | cons c s ih => rw [bytes_cons, String.utf8Len_cons, ih, Nat.add_comm]

theorem length_le_bytes (s : List Char) : s.length ≤ bytes s := by
  induction s with
  | nil => exact Nat.le_refl _
  | cons c s ih =>
    have := c.utf8Size_pos
    rw [List.length_cons, bytes_cons]
    omega

/-- A place between two parts of a text does not tear a character apart. -/
theorem isValid_bytes (a b : List Char) :
    (⟨bytes a⟩ : String.Pos.Raw).IsValid (String.ofList (a ++ b)) := by
  refine String.Pos.Raw.isValid_iff_exists_append.2 ⟨String.ofList a, String.ofList b, ?_, ?_⟩
  · exact String.ofList_append
  · rw [bytes_eq_utf8ByteSize]
    rfl

/-- A part of a text is what is encoded between the places at its two ends. -/
theorem extract_bytes (a b c : List Char) :
    String.Pos.Raw.extract (String.ofList (a ++ b ++ c)) ⟨bytes a⟩ ⟨bytes a + bytes b⟩ =
      String.ofList b := by
  rw [bytes_eq_utf8ByteSize, bytes_eq_utf8ByteSize, String.utf8ByteSize_ofList,
    String.utf8ByteSize_ofList, String.extract_of_valid]

end Text

/-- Columns count the characters since the last line feed, or since the beginning. -/
theorem Place.column_after_first (s : List Char) :
    (first.after s).column = 1 + (s.rtakeWhile (· ≠ '\n')).length := by
  induction s using List.reverseRecOn with
  | nil => rfl
  | append_singleton s c ih =>
    rw [after_append, after_cons, after_nil, advance]
    by_cases hc : c = '\n'
    · rw [if_pos hc, List.rtakeWhile_concat_neg _ _ _ (by simpa using hc)]
      rfl
    · rw [if_neg hc, List.rtakeWhile_concat_pos _ _ _ (by simpa using hc), List.length_append]
      dsimp only
      rw [ih, Nat.add_assoc]
      rfl

/-! ### One token -/

namespace Located

/-- The text before a token. -/
def before (source : String) (t : Located) : List Char :=
  (String.Pos.Raw.extract source ⟨0⟩ ⟨t.place.start⟩).toList

/-- A token that stands in a text where it says. -/
structure IsSpanOf (source : String) (t : Located) : Prop where
  isValid_start : (⟨t.place.start⟩ : String.Pos.Raw).IsValid source
  isValid_stop : (⟨t.stop⟩ : String.Pos.Raw).IsValid source
  extract_eq : String.Pos.Raw.extract source ⟨t.place.start⟩ ⟨t.stop⟩ = String.ofList t.token.raw
  width_eq : t.stop - t.place.start = (String.ofList t.token.raw).utf8ByteSize
  width_pos : 1 ≤ t.stop - t.place.start
  line_eq : t.place.line = 1 + (t.before source).count '\n'
  column_eq : t.place.column = 1 + ((t.before source).rtakeWhile (· ≠ '\n')).length

theorem before_eq {t : Located} {a : List Char} (h : t.place.start = Text.bytes a)
    (b : List Char) : t.before (String.ofList (a ++ b)) = a := by
  have he := Text.extract_bytes [] a b
  rw [Text.bytes_nil, Nat.zero_add, List.nil_append] at he
  rw [before, h, he, String.toList_ofList]

/-- A token stands where it says if its place is the one behind the text before it. -/
theorem isSpanOf {t : Located} {a : List Char} (h : t.place = Place.first.after a)
    (hr : t.token.raw ≠ []) (b : List Char) :
    t.IsSpanOf (String.ofList (a ++ t.token.raw ++ b)) := by
  have hstart : t.place.start = Text.bytes a := by
    rw [h, Place.start_after]
    exact Nat.zero_add _
  have hstop : t.stop = Text.bytes (a ++ t.token.raw) := by
    rw [stop, hstart, Text.bytes_append]
  have hbefore : t.before (String.ofList (a ++ t.token.raw ++ b)) = a := by
    rw [List.append_assoc]
    exact before_eq hstart _
  have hwidth : t.stop - t.place.start = Text.bytes t.token.raw := by
    rw [stop, Nat.add_sub_cancel_left]
  refine ⟨?_, ?_, ?_, ?_, ?_, ?_, ?_⟩
  · rw [hstart, List.append_assoc]
    exact Text.isValid_bytes a _
  · rw [hstop]
    exact Text.isValid_bytes _ b
  · rw [stop, hstart]
    exact Text.extract_bytes a _ b
  · rw [hwidth, Text.bytes_eq_utf8ByteSize]
  · rw [hwidth]
    exact Nat.le_trans (List.length_pos_iff.2 hr) (Text.length_le_bytes _)
  · rw [hbefore, h, Place.line_after]
    rfl
  · rw [hbefore, h, Place.column_after_first]

end Located

/-! ### All tokens -/

theorem raw_ne_nil_of_mem_tokensFrom (previous : Option Char) (p : Place) (s : List Char) :
    ∀ t ∈ tokensFrom previous p s, t.token.raw ≠ [] :=
  fun t _ => t.token.raw_ne_nil

/-- Each token takes a character, so there are no more tokens than characters. -/
theorem length_le_length_raws {ts : List Located} (h : ∀ t ∈ ts, t.token.raw ≠ []) :
    ts.length ≤ (raws ts).length := by
  induction ts with
  | nil => exact Nat.le_refl _
  | cons t ts ih =>
    have ht := List.length_pos_iff.2 (h t (by simp))
    have hts := ih fun u hu => h u (by simp [hu])
    rw [raws_cons, List.length_append, List.length_cons]
    omega

namespace Chained

variable {p : Place} {ts : List Located}

theorem start_of_head? (h : Chained p ts) {t : Located} (ht : t ∈ ts.head?) :
    t.place.start = p.start := by
  obtain ⟨us, rfl⟩ := List.head?_eq_some_iff.1 ht
  rw [h.1]

theorem isChain (h : Chained p ts) : ts.IsChain fun t u => t.stop = u.place.start := by
  induction ts generalizing p with
  | nil => exact .nil
  | cons t ts ih =>
    cases ts with
    | nil => exact .singleton t
    | cons u us =>
      refine .cons_cons ?_ (ih h.2)
      rw [h.2.1, Place.start_after, Located.stop, h.1]

theorem stop_of_getLast? (h : Chained p ts) {t : Located} (ht : t ∈ ts.getLast?) :
    t.stop = p.start + Text.bytes (raws ts) := by
  obtain ⟨us, rfl⟩ := List.getLast?_eq_some_iff.1 ht
  rw [Located.stop, h.place_eq us [], Place.start_after]
  simp [Nat.add_assoc]

end Chained

/-- **The tokens of a text cover it.**  There are no more of them than bytes, their texts make the
text together, they stand one behind the other from its first byte to its last, and each stands
where it says. -/
theorem tokens_cover (source : String) :
    (tokens source.toList).length ≤ source.utf8ByteSize ∧
      raws (tokens source.toList) = source.toList ∧
      (∀ t ∈ (tokens source.toList).head?, t.place.start = 0) ∧
      (tokens source.toList).IsChain (fun t u => t.stop = u.place.start) ∧
      (∀ t ∈ (tokens source.toList).getLast?, t.stop = source.utf8ByteSize) ∧
      ∀ t ∈ tokens source.toList, t.IsSpanOf source := by
  have hr : raws (tokens source.toList) = source.toList := raws_tokensFrom _ _ _
  have hc : Chained Place.first (tokens source.toList) := chained_tokensFrom _ _ _
  have hn : ∀ t ∈ tokens source.toList, t.token.raw ≠ [] := raw_ne_nil_of_mem_tokensFrom _ _ _
  have hb : source.utf8ByteSize = Text.bytes source.toList := by
    rw [Text.bytes_eq_utf8ByteSize, String.ofList_toList]
  refine ⟨?_, hr, fun t ht => hc.start_of_head? ht, hc.isChain, fun t ht => ?_, fun t ht => ?_⟩
  · calc (tokens source.toList).length
      _ ≤ (raws (tokens source.toList)).length := length_le_length_raws hn
      _ = source.toList.length := by rw [hr]
      _ ≤ Text.bytes source.toList := Text.length_le_bytes _
      _ = source.utf8ByteSize := hb.symm
  · rw [hc.stop_of_getLast? ht, hr, hb]
    exact Nat.zero_add _
  · obtain ⟨us, vs, h⟩ := List.append_of_mem ht
    have hsource : source = String.ofList (raws us ++ t.token.raw ++ raws vs) := by
      rw [← String.ofList_toList (s := source), ← hr, h]
      simp
    rw [hsource]
    exact Located.isSpanOf ((h ▸ hc).place_eq us vs) (hn t ht) _

end SpecEngine
