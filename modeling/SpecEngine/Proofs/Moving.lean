import SpecEngine.Proofs.Feeding
import SpecEngine.Proofs.Merging

/-!
# Reading elsewhere

Reading a spec file keeps the places that it is given without looking at them, and does nothing to
the suites that it has but to add to them.  So tokens are read in the same way at other places and
beside other suites.

* `mapPlace`: tokens, outlines and errors with other places;
* `Outline.moved`, `feed_moved`, `feedAll_moved`, `bind_finish_moved`: reading a moved outline;
* `proper_feed`, `proper_feedAll`: what is read stays proper.
-/

namespace SpecEngine

/-- A token at another place. -/
def Located.mapPlace (f : Place → Place) (t : Located) : Located :=
  ⟨t.token, f t.place⟩

/-- An open suite, opened at another place. -/
def Draft.mapPlace (f : Place → Place) (d : Draft) : Draft :=
  ⟨d.suite, f d.place⟩

/-- What is open, opened at other places. -/
def Opened.mapPlace (f : Place → Place) : Opened → Opened
  | .nothing => .nothing
  | .untitled p => .untitled (f p)
  | .suite d => .suite (d.mapPlace f)
  | .untitledSpec d p => .untitledSpec (d.mapPlace f) (f p)
  | .body d opener p text => .body (d.mapPlace f) opener (f p) text

/-- An error at another place, and all else as it was. -/
def OutlineError.mapPlace (f : Place → Place) : OutlineError → OutlineError
  | .unmatchedEnd p => .unmatchedEnd (f p)
  | .nested k c p => .nested k c (f p)
  | .outsideSuite k p => .outsideSuite k (f p)
  | .missingDescription c p => .missingDescription c (f p)
  | .unexpectedLiteral raw p => .unexpectedLiteral raw (f p)
  | .unterminated c p => .unterminated c (f p)

namespace Outline

theorem proper_feed {o o' : Outline} {t : Located} (h : o.feed t = .ok o')
    (ho : o.catalogue.Proper) : o'.catalogue.Proper := by
  cases accepts_of_feed h with
  | closeSuite => exact Catalogue.proper_update ho _ _
  | _ => exact ho

theorem proper_feedAll {o o' : Outline} {ts : List Located} (h : feedAll o ts = .ok o')
    (ho : o.catalogue.Proper) : o'.catalogue.Proper := by
  fun_induction feedAll o ts with
  | case1 o =>
    cases h
    exact ho
  | case2 o t ts hc carriage hn ih => exact ih h ho
  | case3 o t ts hc hn ih => exact ih h ho
  | case4 o t ts hc ht =>
    cases h
    exact ho
  | case5 o t ts hc ht p hf ih => exact ih h (proper_feed hf ho)
  | case6 o t ts hc ht e hf => cases h

/-- An outline with other suites and other places. -/
def moved (g : Catalogue → Catalogue) (f : Place → Place) (o : Outline) : Outline :=
  ⟨g o.catalogue, o.opened.mapPlace f, o.commenting⟩

section

variable {g : Catalogue → Catalogue}
  (hg : ∀ {c : Catalogue}, c.Proper → ∀ s, g (register c s) = register (g c) s)
  (f : Place → Place)

include hg in
theorem feedKeyword_moved {o : Outline} (ho : o.catalogue.Proper) (k : Keyword) (p : Place) :
    (o.moved g f).feedKeyword k (f p) =
      ((o.feedKeyword k p).map (moved g f)).mapError (.mapPlace f) := by
  obtain ⟨catalogue, x, b⟩ := o
  cases k with
  | close =>
    cases x with
    | suite d =>
      exact congrArg (fun a => Except.ok (⟨a, .nothing, b⟩ : Outline)) (hg ho d.suite).symm
    | _ => rfl
  | _ => cases x <;> rfl

theorem feedText_moved (o : Outline) (token : Token) (p : Place) :
    (o.moved g f).feedText token (f p) =
      ((o.feedText token p).map (moved g f)).mapError (.mapPlace f) := by
  obtain ⟨catalogue, x, b⟩ := o
  cases x with
  | untitledSpec d q =>
    cases token with
    | literal w => rfl
    | _ =>
      simp only [feedText, moved, Opened.mapPlace]
      split <;> rfl
  | _ => cases token <;> rfl

include hg in
/-- A token does elsewhere what it does here. -/
theorem feed_moved {o : Outline} (ho : o.catalogue.Proper) (t : Located) :
    (o.moved g f).feed (t.mapPlace f) =
      ((o.feed t).map (moved g f)).mapError (.mapPlace f) := by
  obtain ⟨token, p⟩ := t
  cases token with
  | keyword k => exact feedKeyword_moved hg f ho k p
  | _ => exact feedText_moved f o _ p

include hg in
theorem feedAll_moved {o : Outline} (ho : o.catalogue.Proper) (ts : List Located) :
    feedAll (o.moved g f) (ts.map (.mapPlace f)) =
      ((feedAll o ts).map (moved g f)).mapError (.mapPlace f) := by
  induction ts generalizing o with
  | nil => rfl
  | cons t ts ih =>
    have hc : (o.moved g f).commenting = o.commenting := rfl
    have ht : (t.mapPlace f).token = t.token := rfl
    rw [List.map_cons, feedAll, feedAll, hc, ht]
    split
    · split
      · exact ih (o := { o with commenting := false }) ho
      · exact ih ho
    · split
      · rfl
      · rw [feed_moved hg f ho]
        cases hf : o.feed t with
        | error e => rfl
        | ok p => exact ih (proper_feed hf ho)

theorem finish_moved (o : Outline) :
    (o.moved g f).finish = (o.finish.map g).mapError (.mapPlace f) := by
  obtain ⟨catalogue, x, b⟩ := o
  cases x <;> rfl

include hg in
/-- What tokens make is what they make elsewhere. -/
theorem bind_finish_moved {o : Outline} (ho : o.catalogue.Proper) (ts : List Located) :
    (feedAll (o.moved g f) (ts.map (.mapPlace f))).bind finish =
      (((feedAll o ts).bind finish).map g).mapError (.mapPlace f) := by
  rw [feedAll_moved hg f ho]
  cases feedAll o ts with
  | error e => rfl
  | ok p => exact finish_moved f p

/-- What tokens make depends on their places only as far as the places that are looked at do. -/
theorem bind_finish_congr {o : Outline} (ho : o.catalogue.Proper) {ts us : List Located}
    (h : ts.map (Located.mapPlace f) = us.map (Located.mapPlace f)) :
    ((feedAll o ts).bind finish).mapError (OutlineError.mapPlace f) =
      ((feedAll o us).bind finish).mapError (OutlineError.mapPlace f) := by
  have hm := bind_finish_moved (g := id) (fun _ _ => rfl) f ho
  simp only [Except.map_id, id_eq] at hm
  rw [← hm, ← hm, h]

end

end Outline

end SpecEngine
