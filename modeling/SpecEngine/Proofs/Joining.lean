import SpecEngine.Proofs.Moving
import SpecEngine.Session

/-!
# Joining spec files

Reading two spec files one after the other is reading one file in which the second follows the first
on a line of its own.

* `Place.shift` and the like: what is said of the second file, as it is said of the joined one;
  `tokensFrom_shift`, `tokensFrom_feed`: its tokens;
* `Outline.behind`, `bind_finish_behind`: the second file is read behind the first as it is read by
  itself, whatever suites the first has;
* `Halts`, `feedAll_step`, `feedAll_append`, `feedAll_append_of_halts`: what stands behind tokens is
  read unless a halt takes effect among them;
* `feedAll_of_read`: nothing is carried over the line break between the files;
* `read_append_feed`, `read_joined`: reading and loading a joined file.
-/

namespace SpecEngine

/-! ### Places behind a text -/

/-- The place that a place becomes behind `bytes` bytes and `lines` lines. -/
def Place.shift (bytes lines : Nat) (p : Place) : Place :=
  ⟨p.start + bytes, p.line + lines, p.column⟩

/-- A token further down. -/
def Located.shift (bytes lines : Nat) (t : Located) : Located :=
  ⟨t.token, t.place.shift bytes lines⟩

/-- An open suite further down. -/
def Draft.shift (bytes lines : Nat) (d : Draft) : Draft :=
  ⟨d.suite, d.place.shift bytes lines⟩

/-- What is open, further down. -/
def Opened.shift (bytes lines : Nat) : Opened → Opened
  | .nothing => .nothing
  | .untitled p => .untitled (p.shift bytes lines)
  | .suite d => .suite (d.shift bytes lines)
  | .untitledSpec d p => .untitledSpec (d.shift bytes lines) (p.shift bytes lines)
  | .body d opener p text => .body (d.shift bytes lines) opener (p.shift bytes lines) text

/-- An error with its place behind `bytes` bytes and `lines` lines, and all else as it was. -/
def OutlineError.shift (bytes lines : Nat) : OutlineError → OutlineError
  | .unmatchedEnd p => .unmatchedEnd (p.shift bytes lines)
  | .nested k c p => .nested k c (p.shift bytes lines)
  | .outsideSuite k p => .outsideSuite k (p.shift bytes lines)
  | .missingDescription c p => .missingDescription c (p.shift bytes lines)
  | .unexpectedLiteral raw p => .unexpectedLiteral raw (p.shift bytes lines)
  | .unterminated c p => .unterminated c (p.shift bytes lines)

theorem OutlineError.shift_eq (bytes lines : Nat) :
    shift bytes lines = mapPlace (.shift bytes lines) := by
  funext e
  cases e <;> rfl

namespace Place

theorem advance_shift (bytes lines : Nat) (p : Place) (c : Char) :
    (p.shift bytes lines).advance c = (p.advance c).shift bytes lines := by
  unfold advance
  by_cases hc : c = '\n'
  · simp [shift, hc, Nat.add_right_comm]
  · simp [shift, hc, Nat.add_right_comm]

theorem after_shift (bytes lines : Nat) (p : Place) (s : List Char) :
    (p.shift bytes lines).after s = (p.after s).shift bytes lines := by
  induction s generalizing p with
  | nil => rfl
  | cons c s ih => rw [after_cons, after_cons, advance_shift, ih]

/-- Behind a text and a line feed everything starts anew but for the count of bytes and lines. -/
theorem after_feed (s : List Char) :
    first.after (s ++ ['\n']) = first.shift (Text.bytes s + 1) (s.count '\n' + 1) := by
  have hs := start_after first s
  have hl := line_after first s
  have hb : '\n'.utf8Size = 1 := rfl
  rw [after_append, after_cons, after_nil, advance, if_pos rfl, hs, hl, hb]
  simp [shift, first]
  omega

end Place

/-- A text has the same tokens behind another one, if keywords may stand at its front. -/
theorem tokensFrom_shift (bytes lines : Nat) (previous : Option Char) (p : Place) (s : List Char)
    {previous' : Option Char} (hp : Text.allowsKeyword previous' = Text.allowsKeyword previous) :
    tokensFrom previous' (p.shift bytes lines) s =
      (tokensFrom previous p s).map (Located.shift bytes lines) := by
  induction previous, p, s using tokensFrom_induction generalizing previous' with
  | nil => simp
  | cons previous p c s token t h hs ih =>
    rw [tokensFrom_cons h, tokensFrom_cons (hp ▸ h), Place.after_shift, ih rfl]
    rfl

/-- The tokens of a line are the same behind other lines. -/
theorem tokensFrom_feed (s t : List Char) :
    tokensFrom (some '\n') (Place.first.after (s ++ ['\n'])) t =
      (tokens t).map (.shift (Text.bytes s + 1) (s.count '\n' + 1)) := by
  rw [Place.after_feed, tokensFrom_shift _ _ none _ _ (Text.allowsKeyword_feed.trans rfl), tokens]

namespace Outline

/-! ### Reading behind a catalogue -/

section

variable (c : Catalogue) (bytes lines : Nat)

/-- An outline as it is behind another file, which has the suites of `c`. -/
def behind (o : Outline) : Outline :=
  ⟨c.merge o.catalogue, o.opened.shift bytes lines, o.commenting⟩

theorem behind_eq : behind c bytes lines = moved (c.merge ·) (.shift bytes lines) := by
  funext ⟨catalogue, x, b⟩
  cases x <;> rfl

/-- What tokens make behind a catalogue is what they make by themselves, and the catalogue. -/
theorem bind_finish_behind {o : Outline} (ho : o.catalogue.Proper) (ts : List Located) :
    (feedAll (o.behind c bytes lines) (ts.map (.shift bytes lines))).bind finish =
      (((feedAll o ts).bind finish).map (c.merge ·)).mapError (.shift bytes lines) := by
  rw [behind_eq, OutlineError.shift_eq]
  exact bind_finish_moved (fun hp s => Catalogue.merge_update_absorb hp c s.description s) _ ho ts

end

/-! ### Tokens in two parts -/

/-- Whether a halt takes effect among tokens: one that stands in no comment. -/
def Halts : Region → List Located → Prop
  | _, [] => False
  | r, t :: ts => (r ≠ .comment ∧ t.token = .keyword .halt) ∨ Halts (r.next t.token) ts

instance decidableHalts : (r : Region) → (ts : List Located) → Decidable (Halts r ts)
  | _, [] => inferInstanceAs (Decidable False)
  | r, t :: ts =>
    have := decidableHalts (r.next t.token) ts
    inferInstanceAs
      (Decidable ((r ≠ .comment ∧ t.token = .keyword .halt) ∨ Halts (r.next t.token) ts))

theorem Halts.append {r : Region} {ts : List Located} (h : Halts r ts) (us : List Located) :
    Halts r (ts ++ us) := by
  induction ts generalizing r with
  | nil => exact h.elim
  | cons t ts ih => exact h.imp_right ih

/-- What a token does, whatever stands behind it: it halts the reading, it fails, or the reading
goes on. -/
theorem feedAll_step {o : Outline} (ho : o.commenting = true → o.opened.inBody = false)
    (t : Located) :
    ((o.region ≠ .comment ∧ t.token = .keyword .halt) ∧ ∀ ts, feedAll o (t :: ts) = .ok o) ∨
    ¬ (o.region ≠ .comment ∧ t.token = .keyword .halt) ∧
      ((∃ e, ∀ ts, feedAll o (t :: ts) = .error e) ∨
      ∃ p : Outline, (p.commenting = true → p.opened.inBody = false) ∧
        p.region = o.region.next t.token ∧ ∀ ts, feedAll o (t :: ts) = feedAll p ts) := by
  simp only [feedAll]
  by_cases hc : o.commenting = true
  · have hr : o.region = .comment := by simp [region, hc]
    refine Or.inr ⟨fun h => h.1 hr, Or.inr ?_⟩
    simp only [if_pos hc]
    split
    · next carriage hn =>
      refine ⟨{ o with commenting := false }, Bool.noConfusion, ?_, fun _ => rfl⟩
      rw [region_of_not_commenting rfl, ho hc, hr, hn]
      rfl
    · next hn =>
      refine ⟨o, ho, ?_, fun _ => rfl⟩
      rw [hr]
      unfold Region.next
      split <;> simp_all
  · have hc : o.commenting = false := by simpa using hc
    have hr : o.region ≠ .comment := by
      rw [region_of_not_commenting hc]
      split <;> simp
    simp only [hc, Bool.false_eq_true, if_false]
    by_cases ht : t.token = .keyword .halt
    · exact Or.inl ⟨⟨hr, ht⟩, fun _ => if_pos ht⟩
    · refine Or.inr ⟨fun h => ht h.2, ?_⟩
      simp only [if_neg ht]
      cases hf : o.feed t with
      | error e => exact Or.inl ⟨e, fun _ => rfl⟩
      | ok p =>
        obtain ⟨hp, hb⟩ := (accepts_of_feed hf).region_eq ht hc
        exact Or.inr ⟨p, hb, hp, fun _ => rfl⟩

/-- Tokens among which no halt takes effect are followed by those behind them. -/
theorem feedAll_append {o : Outline} (ho : o.commenting = true → o.opened.inBody = false)
    {ts : List Located} (h : ¬ Halts o.region ts) (us : List Located) :
    feedAll o (ts ++ us) = (feedAll o ts).bind fun p => feedAll p us := by
  induction ts generalizing o with
  | nil => rfl
  | cons t ts ih =>
    rw [Halts, not_or] at h
    rw [List.cons_append]
    obtain ⟨ht, -⟩ | ⟨-, ⟨e, he⟩ | ⟨p, hp, hr, hf⟩⟩ := feedAll_step ho t
    · exact absurd ht h.1
    · rw [he, he]
      rfl
    · rw [hf, hf]
      exact ih hp (hr ▸ h.2)

/-- Behind a halt that takes effect nothing is read. -/
theorem feedAll_append_of_halts {o : Outline}
    (ho : o.commenting = true → o.opened.inBody = false) {ts : List Located}
    (h : Halts o.region ts) (us : List Located) : feedAll o (ts ++ us) = feedAll o ts := by
  induction ts generalizing o with
  | nil => exact h.elim
  | cons t ts ih =>
    rw [List.cons_append]
    obtain ⟨-, hf⟩ | ⟨ht, ⟨e, he⟩ | ⟨p, hp, hr, hf⟩⟩ := feedAll_step ho t
    · rw [hf, hf]
    · rw [he, he]
    · rw [hf, hf]
      exact ih hp (hr ▸ h.resolve_left ht)

/-- A line break ends a comment, and means nothing otherwise outside bodies. -/
theorem feedAll_newline {o : Outline} (ho : o.opened.inBody = false) (carriage : Bool) (p : Place)
    (us : List Located) :
    feedAll o (⟨.newline carriage, p⟩ :: us) = feedAll { o with commenting := false } us := by
  obtain ⟨c, x, b⟩ := o
  cases x with
  | untitledSpec d q => cases ho
  | body d opener q text => cases ho
  | _ => cases b <;> rfl

/-- A character behind which nothing is open changed nothing. -/
theorem eq_of_feedAll_char {o o' : Outline} {d : Char} {p : Place}
    (h : feedAll o [⟨.char d, p⟩] = .ok o') (ho : o'.opened = .nothing) : o = o' := by
  obtain ⟨c, x, b⟩ := o
  cases b with
  | true =>
    cases h
    rfl
  | false =>
    have hn : (Token.char d) ≠ .keyword .halt := Token.noConfusion
    cases hf : (⟨c, x, false⟩ : Outline).feed ⟨.char d, p⟩ with
    | error e => simp [feedAll, hf] at h
    | ok q =>
      have hq : feedAll q [] = .ok o' := by rwa [feedAll_cons rfl hn hf] at h
      cases hq
      cases accepts_of_feed hf with
      | collect => cases ho
      | blank => cases ho
      | loose => rfl

/-- Where a text ends that was read, nothing is open. -/
theorem exists_of_read {s : List Char} {c : Catalogue} (h : read s = .ok c) :
    ∃ b, feedAll {} (tokens s) = .ok ⟨c, .nothing, b⟩ := by
  unfold read at h
  cases hf : feedAll {} (tokens s) with
  | error e => simp [hf] at h
  | ok o =>
    obtain ⟨c', x, b⟩ := o
    rw [hf] at h
    cases x <;> cases h
    exact ⟨b, rfl⟩

theorem proper_of_read {s : List Char} {c : Catalogue} (h : read s = .ok c) : c.Proper := by
  obtain ⟨b, hf⟩ := exists_of_read h
  exact proper_feedAll hf Catalogue.proper_nil

/-- Behind a text that was read, no halt having taken effect, the next line starts anew. -/
theorem feedAll_of_read {s : List Char} {c : Catalogue} (h : read s = .ok c)
    (hs : ¬ Halts .outside (tokens s)) (t : List Char) :
    feedAll {} (tokens (s ++ '\n' :: t)) =
      feedAll ⟨c, .nothing, false⟩
        (tokensFrom (some '\n') (Place.first.after (s ++ ['\n'])) t) := by
  obtain ⟨b, hf⟩ := exists_of_read h
  obtain ⟨ts, carriage, p, htokens, -, hown⟩ := tokensFrom_append_feed none Place.first s t
  -- a return at the end of the text, which is a token there, did nothing
  have hts : ¬ Halts .outside ts ∧ feedAll {} ts = .ok ⟨c, .nothing, b⟩ := by
    rw [tokens] at hs hf
    rcases hown with rfl | ⟨q, hq⟩
    · exact ⟨hs, hf⟩
    · rw [hq] at hs hf
      have hn : ¬ Halts .outside ts := fun h => hs (h.append _)
      refine ⟨hn, ?_⟩
      rw [feedAll_append (o := {}) (fun h => nomatch h) hn] at hf
      cases hu : feedAll {} ts with
      | error e => simp [hu, Except.bind] at hf
      | ok u =>
        rw [hu] at hf
        rw [eq_of_feedAll_char hf rfl]
  rw [tokens, htokens, feedAll_append (o := {}) (fun h => nomatch h) hts.1, hts.2]
  exact feedAll_newline rfl carriage p _

/-- A text with another one on the next line is read as the other one is, behind what was read of
it. -/
theorem read_append_feed {s : List Char} {c : Catalogue} (h : read s = .ok c)
    (hs : ¬ Halts .outside (tokens s)) (t : List Char) :
    read (s ++ '\n' :: t) =
      ((read t).map (c.merge ·)).mapError (.shift (Text.bytes s + 1) (s.count '\n' + 1)) := by
  have hstart : (⟨c, .nothing, false⟩ : Outline) =
      ({} : Outline).behind c (Text.bytes s + 1) (s.count '\n' + 1) := rfl
  rw [read_eq_bind, feedAll_of_read h hs, tokensFrom_feed, hstart,
    bind_finish_behind c _ _ Catalogue.proper_nil, ← read_eq_bind]

/-- Reading a text with another one on the next line adds what is read of the other one to what was
read of it, or fails as the other one fails; loading it is loading one after the other. -/
theorem read_joined {source₁ source₂ : String} {c₁ : Catalogue}
    (h : read source₁.toList = .ok c₁) (hs : ¬ Halts .outside (tokens source₁.toList)) :
    (read (source₁ ++ "\n" ++ source₂).toList =
      match read source₂.toList with
      | .ok c₂ => .ok (c₁.merge c₂)
      | .error e =>
        .error (e.shift (Text.bytes source₁.toList + 1) (source₁.toList.count '\n' + 1))) ∧
    ∀ s s₁ s₂ : Session, s.parse source₁ = .ok s₁ → s₁.parse source₂ = .ok s₂ →
      s.parse (source₁ ++ "\n" ++ source₂) = .ok s₂ := by
  have hjoined : (source₁ ++ "\n" ++ source₂).toList =
      source₁.toList ++ '\n' :: source₂.toList := by simp
  rw [hjoined, read_append_feed h hs]
  refine ⟨by cases read source₂.toList <;> rfl, fun s s₁ s₂ h₁ h₂ => ?_⟩
  rw [Session.parse, h] at h₁
  cases h₁
  rw [Session.parse] at h₂ ⊢
  rw [hjoined, read_append_feed h hs]
  cases hr : read source₂.toList with
  | error e => simp [hr] at h₂
  | ok c₂ =>
    rw [hr] at h₂
    cases h₂
    show Except.ok { s with catalogue := s.catalogue.merge (c₁.merge c₂) } = _
    rw [Catalogue.merge_assoc (proper_of_read h)]

/-- A comment in the last line and a return behind it, then a suite that goes on with another body
for its hook, or an error. -/
theorem read_joined_comment :
    let s := "describe 'a' before x end it 'b' y end end // __END__ end\r"
    let t := "describe 'a' it 'c' z end before w end end"
    ¬ Halts .outside (tokens s.toList) ∧ ∃ c, read s.toList = .ok c ∧
      (match read (s ++ "\n" ++ t).toList with
      | .ok d => d.suites.map fun s => (s.description, s.hooks, s.specs.map (·.body))
      | .error _ => []) = [("a", [(.before, " w ")], [" y ", " z "])] ∧
      (match read (s ++ "\n" ++ " end").toList with
      | .ok _ => none
      | .error e => some e) = some (.unmatchedEnd ⟨60, 2, 2⟩) := by
  intro s t
  have hh : ¬ Halts .outside (tokens s.toList) := by decide +kernel
  have hr : read s.toList = .ok ((read s.toList).toOption.getD []) := by
    have hok : (read s.toList).isOk = true := by decide +kernel
    cases h : read s.toList with
    | ok c => rfl
    | error e => simp [h, Except.isOk, Except.toBool] at hok
  refine ⟨hh, _, hr, ?_, ?_⟩
  · rw [(read_joined hr hh).1]
    decide +kernel
  · rw [(read_joined hr hh).1]
    decide +kernel

end Outline

end SpecEngine
