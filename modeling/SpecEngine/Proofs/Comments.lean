import SpecEngine.Proofs.Locality
import SpecEngine.Proofs.Recognition

/-!
# Comments outside bodies

A comment that starts where no spec or hook is open may be left out together with its marker.

* `Fits`, `read_eq_iff`: what must stand behind a token; `tokensFrom_of_append`: the tokens up to a
  blank are read without looking behind it;
* `feedAll_past_comment`: a comment is passed over; `bind_finish_congr`: what tokens make does not
  depend on how many bytes are before them;
* `Reaches`, `read_comment`: a text with a comment and the text without it; `read_comment_in_title`:
  between `it` and its description no comment may stand.
-/

namespace SpecEngine

/-! ### Tokens up to a blank -/

/-- Whether a text is empty or ends in a blank or a line feed. -/
def Text.EndsBlank (s : List Char) : Prop :=
  ∀ c ∈ s.getLast?, c = ' ' ∨ c = '\t' ∨ c = '\n'

instance (s : List Char) : Decidable (Text.EndsBlank s) :=
  decidable_of_iff (s.getLast?.all fun c => c = ' ' || c = '\t' || c = '\n') <| by
    simp [Text.EndsBlank, Option.all_eq_true, or_assoc]

namespace Text.EndsBlank

theorem of_append {s t : List Char} (h : EndsBlank (s ++ t)) : EndsBlank t := by
  intro c hc
  refine h c ?_
  rw [List.getLast?_append, Option.mem_def.1 hc]
  rfl

theorem getLast?_ne_return {s : List Char} (h : EndsBlank s) : s.getLast? ≠ some '\r' :=
  fun hs => absurd (h '\r' hs) (by decide)

theorem isBoundary {s : List Char} {c : Char} (h : EndsBlank (s ++ [c])) : IsBoundary c := by
  rcases h c (by simp) with rfl | rfl | rfl
  · exact Or.inl rfl
  · exact Or.inr (Or.inl rfl)
  · exact Or.inr (Or.inr (Or.inr rfl))

end Text.EndsBlank

namespace Token

/-- Whether a token may be read in front of `r`. -/
def Fits (keywords : Bool) (r : List Char) : Token → Prop
  | .keyword _ => keywords = true ∧ Text.atBoundary r = true
  | .literal d => Encloses d r
  | .comment | .newline _ | .char _ => True

/-- A token that is more than a character is read where its text stands and what follows fits. -/
theorem read_eq_iff {keywords : Bool} {c : Char} {s r : List Char} {token : Token}
    (ht : ¬ ∃ d, token = .char d) :
    (read keywords c s).pair = (token, r) ↔ c :: s = token.raw ++ r ∧ token.Fits keywords r := by
  cases token with
  | keyword k =>
    rw [read_eq_keyword_iff]
    exact and_left_comm
  | literal d =>
    rw [read_eq_literal_iff, raw, List.cons_append, List.append_assoc, List.cons.injEq, and_assoc]
    rfl
  | comment => rw [read_eq_comment_iff, Fits, and_true]
  | newline carriage => rw [read_eq_newline_iff, Fits, and_true]
  | char d => exact absurd ⟨d, rfl⟩ ht

/-- What follows a blank does not matter to a token that ends before the blank. -/
theorem fits_append_iff {keywords : Bool} {token : Token} {r : List Char}
    (h : Text.EndsBlank (token.raw ++ r)) (w : List Char) :
    token.Fits keywords (r ++ w) ↔ token.Fits keywords r := by
  cases r with
  | cons c r =>
    cases token with
    | literal d =>
      rw [Fits, Fits, encloses_iff, encloses_iff]
      exact Iff.rfl
    | _ => exact Iff.rfl
  | nil =>
    -- no token for which something must fit ends in a blank
    rw [List.append_nil] at h
    cases token with
    | keyword k =>
      obtain ⟨u, c, hc⟩ := (List.eq_nil_or_concat' _).resolve_left (raw_ne_nil (.keyword k))
      rw [hc] at h
      refine absurd h.isBoundary (k.not_isBoundary_of_mem_text c ?_)
      rw [show k.text.toList = u ++ [c] from hc]
      simp
    | literal d =>
      rw [raw, ← List.cons_append] at h
      exact absurd h.isBoundary (by simp [Text.IsBoundary])
    | _ => exact Iff.rfl

/-- A token is read without looking behind the next blank. -/
theorem read_of_append {keywords : Bool} {c : Char} {s r w : List Char} {token : Token}
    (hs : Text.EndsBlank (c :: s)) (h : (read keywords c (s ++ w)).pair = (token, r ++ w)) :
    (read keywords c s).pair = (token, r) := by
  have happ : c :: s = token.raw ++ r := by
    have := eq_append_of_read h
    rw [← List.cons_append, ← List.append_assoc] at this
    exact List.append_cancel_right this
  by_cases ht : ∃ d, token = .char d
  · obtain ⟨d, rfl⟩ := ht
    rcases hr : (read keywords c s).pair with ⟨token', r'⟩
    have happ' := eq_append_of_read hr
    by_cases ht' : ∃ e, token' = .char e
    · obtain ⟨e, rfl⟩ := ht'
      obtain ⟨rfl, rfl⟩ := List.cons.inj (happ'.symm.trans happ)
      rfl
    · -- what is read of the text alone is read of the longer text as well
      have hf := (fits_append_iff (happ' ▸ hs) w).2 ((read_eq_iff ht').1 hr).2
      have hw : c :: (s ++ w) = token'.raw ++ (r' ++ w) := by
        rw [← List.cons_append, happ', List.append_assoc]
      rw [(read_eq_iff ht').2 ⟨hw, hf⟩] at h
      exact absurd ⟨d, (Prod.mk.inj h).1⟩ ht'
  · have hf := ((read_eq_iff ht).1 h).2
    exact (read_eq_iff ht).2 ⟨happ, (fits_append_iff (happ ▸ hs) w).1 hf⟩

end Token

/-- The tokens up to a blank are those of the text that ends there. -/
theorem tokensFrom_of_append {previous : Option Char} {p : Place} {a w : List Char}
    {ts us : List Located} (ha : Text.EndsBlank a) (h : tokensFrom previous p (a ++ w) = ts ++ us)
    (hts : raws ts = a) : tokensFrom previous p a = ts := by
  induction ts generalizing previous p a with
  | nil =>
    subst hts
    exact tokensFrom_nil previous p
  | cons t ts ih =>
    cases a with
    | nil => simp [Token.raw_ne_nil] at hts
    | cons c s =>
      rcases hr : (Token.read (Text.allowsKeyword previous) c (s ++ w)).pair with ⟨token, rest⟩
      rw [List.cons_append, tokensFrom_cons hr] at h
      obtain ⟨rfl, hus⟩ := List.cons.inj h
      have hrest : rest = raws ts ++ w := by
        have := Token.eq_append_of_read hr
        rw [← List.cons_append, ← hts, raws_cons, List.append_assoc] at this
        exact (List.append_cancel_left this).symm
      subst hrest
      rw [tokensFrom_cons (Token.read_of_append ha hr), ih (hts ▸ ha).of_append hus rfl]

namespace Outline

/-! ### Passing over a comment -/

theorem feedAll_commenting {o : Outline} (ho : o.commenting = true) {ts : List Located}
    (hts : '\n' ∉ raws ts) (us : List Located) : feedAll o (ts ++ us) = feedAll o us := by
  induction ts with
  | nil => rfl
  | cons t ts ih =>
    rw [raws_cons, List.mem_append, not_or] at hts
    rw [List.cons_append, feedAll, if_pos ho]
    split
    · next carriage hn =>
      refine absurd ?_ hts.1
      rw [hn]
      cases carriage <;> simp [Token.raw]
    · exact ih hts.2

/-- From a comment marker on, everything is passed over up to the end of the line. -/
theorem feedAll_past_comment {o : Outline} (ho : o.opened.inBody = false) {ts : List Located}
    (hts : '\n' ∉ raws ts) (carriage : Bool) (p q : Place) (us : List Located) :
    feedAll o (⟨.comment, p⟩ :: (ts ++ ⟨.newline carriage, q⟩ :: us)) =
      feedAll { o with commenting := false } us := by
  have hc : feedAll o (⟨.comment, p⟩ :: (ts ++ ⟨.newline carriage, q⟩ :: us)) =
      feedAll { o with commenting := true } (ts ++ ⟨.newline carriage, q⟩ :: us) := by
    obtain ⟨c, x, b⟩ := o
    cases b with
    | true => rfl
    | false => exact feedAll_cons rfl Token.noConfusion (feed_comment ho rfl) _
  rw [hc, feedAll_commenting rfl hts]
  rfl

/-- A comment starts and goes on outside bodies only. -/
theorem inBody_of_feedAll {o p : Outline} (ho : o.commenting = true → o.opened.inBody = false)
    {ts : List Located} (h : feedAll o ts = .ok p) :
    p.commenting = true → p.opened.inBody = false := by
  induction ts generalizing o with
  | nil =>
    cases h
    exact ho
  | cons t ts ih =>
    obtain ⟨-, hf⟩ | ⟨-, ⟨e, he⟩ | ⟨q, hq, -, hf⟩⟩ := feedAll_step ho t
    · rw [hf] at h
      cases h
      exact ho
    · rw [he] at h
      cases h
    · rw [hf] at h
      exact ih hq h

end Outline

/-- The tokens of a text with a comment: those before the marker, those of the comment, the line
break and those of the text behind it. -/
theorem exists_tokens_of_comment {a c b : List Char} (hc : '\n' ∉ c) {ts us : List Located}
    {p : Place} (ht : tokens (a ++ '/' :: '/' :: (c ++ '\n' :: b)) = ts ++ ⟨.comment, p⟩ :: us)
    (hts : raws ts = a) :
    ∃ vs carriage q bytes, '\n' ∉ raws vs ∧
      us = vs ++ ⟨.newline carriage, q⟩ :: (tokens b).map (.shift bytes (a.count '\n' + 1)) := by
  obtain ⟨ts', carriage, q, hjoined, hraws, -⟩ :=
    tokensFrom_append_feed none Place.first (a ++ '/' :: '/' :: c) b
  have hcount : (a ++ '/' :: '/' :: c).count '\n' = a.count '\n' := by
    simp [List.count_eq_zero_of_not_mem hc]
  rw [tokensFrom_feed, hcount, ← tokens, List.append_assoc, List.cons_append, List.cons_append,
    ht] at hjoined
  rcases List.append_eq_append_iff.1 hjoined with ⟨w, rfl, hw⟩ | ⟨w, rfl, hw⟩
  · cases w with
    | nil => cases hw
    | cons v vs =>
      obtain ⟨hv, hus⟩ := List.cons.inj hw
      refine ⟨vs, carriage, q, _, fun hn => hc ?_, hus⟩
      obtain ⟨w, hw⟩ : ∃ w, (Token.newline carriage).raw = w ++ ['\n'] := by
        cases carriage
        · exact ⟨[], rfl⟩
        · exact ⟨['\r'], rfl⟩
      rw [raws_append, raws_cons, hts, ← hv, hw] at hraws
      have hraws : raws vs ++ w ++ ['\n'] = c ++ ['\n'] := by simpa [Token.raw] using hraws
      rw [← List.append_cancel_right hraws]
      exact List.mem_append_left w hn
  · cases w with
    | nil => cases hw
    | cons v vs =>
      -- the line break is behind the comment marker
      obtain ⟨rfl, -⟩ := List.cons.inj hw
      have := congrArg List.length hraws
      have := congrArg List.length hts
      simp at *
      omega

/-- A place without its byte. -/
def Place.withoutByte (p : Place) : Place :=
  ⟨0, p.line, p.column⟩

namespace Outline

/-- Whether tokens are read up to their end, and to what. -/
def Reaches (ts : List Located) (o : Outline) : Prop :=
  ¬ Halts .outside ts ∧ feedAll {} ts = .ok o

/-- **A comment outside bodies may be left out**: where no spec and no hook is open, or nothing is
read any more, the rest of the line from the comment marker on makes no difference but for the
bytes that it takes.  Between `it` and the description the marker itself is an error. -/
theorem read_comment {a c b : List Char} (ha : Text.EndsBlank a) (hc : '\n' ∉ c)
    {ts us : List Located} {p : Place}
    (ht : tokens (a ++ '/' :: '/' :: (c ++ '\n' :: b)) = ts ++ ⟨.comment, p⟩ :: us)
    (hts : raws ts = a) :
    ((∀ o, Reaches ts o → o.opened.inBody = false) →
      (read (a ++ '/' :: '/' :: (c ++ '\n' :: b))).mapError (OutlineError.mapPlace .withoutByte) =
        (read (a ++ '\n' :: b)).mapError (OutlineError.mapPlace .withoutByte)) ∧
    ∀ o d q, Reaches ts o → o.opened = .untitledSpec d q →
      read (a ++ '/' :: '/' :: (c ++ '\n' :: b)) = .error (.missingDescription .it q) := by
  have hstart : ({} : Outline).commenting = true → ({} : Outline).opened.inBody = false :=
    fun h => nomatch h
  obtain ⟨vs, carriage, r, bytes, hvs, rfl⟩ := exists_tokens_of_comment hc ht hts
  have hown : tokens a = ts := tokensFrom_of_append ha ht hts
  have hplain := tokens_append_feed ha.getLast?_ne_return b
  rw [hown] at hplain
  rw [read_eq_bind, read_eq_bind, ht, hplain]
  constructor
  · intro ho
    by_cases hh : Halts .outside ts
    · rw [feedAll_append_of_halts hstart hh, feedAll_append_of_halts hstart hh]
    · rw [feedAll_append hstart hh, feedAll_append hstart hh]
      cases hf : feedAll {} ts with
      | error e => rfl
      | ok o =>
        have hx := ho o ⟨hh, hf⟩
        have hp := proper_feedAll hf Catalogue.proper_nil
        show ((feedAll o _).bind finish).mapError _ = ((feedAll o _).bind finish).mapError _
        rw [feedAll_past_comment hx hvs, feedAll_newline hx]
        refine bind_finish_congr (o := { o with commenting := false }) _ hp ?_
        rw [List.map_map, List.map_map]
        rfl
  · rintro ⟨catalogue, x, commenting⟩ d q ⟨hh, hf⟩ rfl
    cases commenting with
    | true => exact absurd (inBody_of_feedAll hstart hf rfl) (by simp [Opened.inBody])
    | false =>
      rw [feedAll_append hstart hh, hf]
      rfl

/-- Keywords, a quote and a halt in a comment behind the description of a suite. -/
theorem read_comment_keywords :
    let a := "describe 'a' ".toList
    let c := " it 'x end __END__".toList
    let b := " it 'b' end end".toList
    let s := a ++ '/' :: '/' :: (c ++ '\n' :: b)
    (Text.EndsBlank a ∧ '\n' ∉ c ∧ raws (tokens a) = a ∧
      tokens s = tokens a ++ ⟨.comment, 13, 1, 14⟩ :: (tokens s).drop ((tokens a).length + 1)) ∧
    (∀ o, Reaches (tokens a) o → o.opened.inBody = false) ∧
    (read s).mapError (OutlineError.mapPlace .withoutByte) =
      (read (a ++ '\n' :: b)).mapError (OutlineError.mapPlace .withoutByte) ∧
    (read s).toOption.map (fun d => d.suites.map fun s =>
      (s.description, s.specs.map (·.description))) = some [("a", ["b"])] := by
  intro a c b s
  have ha : Text.EndsBlank a := by decide
  have hc : '\n' ∉ c := by decide
  have ht : tokens s =
      tokens a ++ ⟨.comment, 13, 1, 14⟩ :: (tokens s).drop ((tokens a).length + 1) := by
    decide +kernel
  have hr : raws (tokens a) = a := by decide +kernel
  have ho : ∀ o, Reaches (tokens a) o → o.opened.inBody = false := by
    rintro o ⟨-, hf⟩
    have hb : (feedAll {} (tokens a)).toOption.all (fun o => !o.opened.inBody) = true := by
      decide +kernel
    rw [hf] at hb
    simpa [Except.toOption] using hb
  exact ⟨⟨ha, hc, hr, ht⟩, ho, (read_comment ha hc ht hr).1 ho, by decide +kernel⟩

/-- A comment between `it` and its description, which is read if the comment is left out. -/
theorem read_comment_in_title :
    let a := "describe 'a' it ".toList
    let c := " c".toList
    let b := " 'x' end end".toList
    let s := a ++ '/' :: '/' :: (c ++ '\n' :: b)
    (Text.EndsBlank a ∧ '\n' ∉ c ∧ raws (tokens a) = a ∧
      tokens s = tokens a ++ ⟨.comment, 16, 1, 17⟩ :: (tokens s).drop ((tokens a).length + 1)) ∧
    (¬ Halts .outside (tokens a) ∧
      (feedAll {} (tokens a)).toOption.bind (·.opened.innermost?) = some (.it, ⟨13, 1, 14⟩) ∧
      (feedAll {} (tokens a)).toOption.map (fun o => o.opened matches .untitledSpec ..) =
        some true) ∧
    (match read s with
      | .ok _ => none
      | .error e => some e) = some (.missingDescription .it ⟨13, 1, 14⟩) ∧
    (read (a ++ '\n' :: b)).toOption.map (fun d => d.suites.map fun s =>
      (s.description, s.specs.map fun t => (t.description, t.body))) =
        some [("a", [("x", " ")])] ∧
    (read s).mapError (OutlineError.mapPlace .withoutByte) ≠
      (read (a ++ '\n' :: b)).mapError (OutlineError.mapPlace .withoutByte) := by
  intro a c b s
  refine ⟨by decide +kernel, by decide +kernel, by decide +kernel, by decide +kernel, fun h => ?_⟩
  have hok := congrArg Except.isOk h
  exact absurd hok (by decide +kernel)

end Outline

end SpecEngine
