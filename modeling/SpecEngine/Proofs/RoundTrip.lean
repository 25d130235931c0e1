import SpecEngine.Proofs.Contents
import SpecEngine.Proofs.Feeding

/-!
# Reading what was written

Contents can be written as a spec file, and reading that file gives back the catalogue of the
contents.

* `Content.render`: how a suite is written; `Content.written`: what its bodies are in the file, the
  blank after the head and the line feed before `end` included;
* `Content.Writable`: titles have to fit between quotes, and bodies may not hold keywords;
* `feedAll_item`, `feedAll_content`: what a written item and a written suite do to an outline;
* `read_renderAll`: the catalogue that is read.
-/

namespace SpecEngine

namespace Item

/-- An item as a spec file has it. -/
def render : Item → String
  | .spec description body => "it '" ++ description ++ "' " ++ body ++ "\nend\n"
  | .hook h body => h.text ++ " " ++ body ++ "\nend\n"

/-- An item with the body that its text has in a spec file. -/
def written : Item → Item
  | .spec description body => .spec description (" " ++ body ++ "\n")
  | .hook h body => .hook h (" " ++ body ++ "\n")

/-- Items whose text is read as it is meant. -/
def Writable : Item → Prop
  | .spec description body => Token.IsTitle description.toList ∧ KeywordFree body.toList
  | .hook _ body => KeywordFree body.toList

instance : DecidablePred Writable
  | .spec description body =>
    inferInstanceAs (Decidable (Token.IsTitle description.toList ∧ KeywordFree body.toList))
  | .hook _ body => inferInstanceAs (Decidable (KeywordFree body.toList))

end Item

namespace Content

/-- A suite as a spec file has it. -/
def render (s : Content) : String :=
  "describe '" ++ s.description ++ "'\n" ++ String.join (s.items.map Item.render) ++ "end\n"

/-- A suite with the bodies that its items have in a spec file. -/
def written (s : Content) : Content :=
  { s with items := s.items.map Item.written }

/-- Suites whose text is read as it is meant. -/
def Writable (s : Content) : Prop :=
  Token.IsTitle s.description.toList ∧ ∀ i ∈ s.items, i.Writable

instance : DecidablePred Writable := fun s =>
  inferInstanceAs (Decidable (Token.IsTitle s.description.toList ∧ ∀ i ∈ s.items, i.Writable))

/-- Suites one after the other. -/
def renderAll (l : List Content) : String :=
  String.join (l.map render)

end Content

/-- How a body ends. -/
def Text.closing (rest : List Char) : List Char :=
  '\n' :: (Keyword.close.text.toList ++ '\n' :: rest)

theorem Item.render_spec (d b : String) (rest : List Char) :
    (Item.spec d b).render.toList ++ rest =
      Keyword.it.text.toList ++ ' ' :: ((Token.literal d.toList).raw ++
        ' ' :: (b.toList ++ Text.closing rest)) := by
  simp [Item.render, Text.closing, Keyword.text, Token.raw]

theorem Item.render_hook (h : Hook) (b : String) (rest : List Char) :
    (Item.hook h b).render.toList ++ rest =
      (Keyword.hook h).text.toList ++ ' ' :: (b.toList ++ Text.closing rest) := by
  simp [Item.render, Text.closing, Keyword.text]

namespace Outline

/-- A body that is written between a blank and `end` is collected as it stands, and closed. -/
theorem feedAll_closing {c : Catalogue} {d : Draft} {opener : Opener} {q : Place}
    {body : List Char} (hb : KeywordFree body) (previous : Option Char) (p : Place)
    (rest : List Char) :
    feedAll ⟨c, .body d opener q "", false⟩
        (tokensFrom previous p (' ' :: (body ++ Text.closing rest))) =
      feedAll
        ⟨c, .suite ⟨opener.finish d.suite (" " ++ String.ofList body ++ "\n"), d.place⟩, false⟩
        (tokensFrom (some '\n') (p.after (' ' :: (body ++ Text.closing []))) rest) := by
  obtain ⟨ts, hts, hr, hk⟩ := hb.exists_tokensFrom Text.allowsKeyword_space (p.after [' '])
    (Keyword.close.text.toList ++ '\n' :: rest)
  -- the blank, the body with its line feed, `end`, and the line feed behind it
  rw [tokensFrom_space, Text.closing, hts, feedAll_cons rfl (by simp) (feed_body rfl),
    feedAll_text hk, hr, tokensFrom_keyword Text.allowsKeyword_feed _ _ rfl,
    feedAll_cons rfl (by simp) rfl, tokensFrom_newline, feedAll_cons rfl (by simp) rfl]
  have ht : "" ++ String.ofList (Token.char ' ').raw ++ String.ofList (body ++ ['\n']) =
      " " ++ String.ofList body ++ "\n" := by
    simp [← String.toList_inj, Token.raw]
  rw [ht]
  simp [Text.closing, Place.after_append]

theorem feedAll_item {i : Item} (hi : i.Writable) (c : Catalogue) (d : Draft) (p : Place)
    (rest : List Char) :
    feedAll ⟨c, .suite d, false⟩ (tokensFrom (some '\n') p (i.render.toList ++ rest)) =
      feedAll ⟨c, .suite ⟨i.written.put d.suite, d.place⟩, false⟩
        (tokensFrom (some '\n') (p.after i.render.toList) rest) := by
  have hn : i.render.toList = i.render.toList ++ [] := (List.append_nil _).symm
  cases i with
  | spec title body =>
    obtain ⟨ht, hb⟩ := hi
    rw [Item.render_spec, tokensFrom_keyword Text.allowsKeyword_feed _ _ rfl,
      feedAll_cons rfl (by simp) rfl, tokensFrom_space, feedAll_cons rfl (by simp) rfl,
      tokensFrom_literal _ _ ht rfl, feedAll_cons rfl (by simp) rfl, feedAll_closing hb, hn,
      Item.render_spec]
    simp [Item.written, Item.put, Opener.finish]
  | hook h body =>
    rw [Item.render_hook, tokensFrom_keyword Text.allowsKeyword_feed _ _ rfl,
      feedAll_cons rfl (by simp) rfl, feedAll_closing hi, hn, Item.render_hook]
    simp [Item.written, Item.put, Opener.finish]

theorem feedAll_items {items : List Item} (hi : ∀ i ∈ items, i.Writable) (c : Catalogue)
    (d : Draft) (p : Place) (rest : List Char) :
    feedAll ⟨c, .suite d, false⟩
        (tokensFrom (some '\n') p ((String.join (items.map Item.render)).toList ++ rest)) =
      feedAll ⟨c, .suite ⟨(items.map Item.written).foldl Item.put d.suite, d.place⟩, false⟩
        (tokensFrom (some '\n') (p.after (String.join (items.map Item.render)).toList) rest) := by
  induction items generalizing d p with
  | nil => simp [String.join]
  | cons i items ih =>
    have hj : String.join ((i :: items).map Item.render) =
        i.render ++ String.join (items.map Item.render) := by simp
    rw [hj, String.toList_append, List.append_assoc, feedAll_item (hi i (by simp)),
      ih (fun j hj => hi j (by simp [hj])), Place.after_append]
    rfl

theorem feedAll_content {s : Content} (hs : s.Writable) (c : Catalogue) {previous : Option Char}
    (hp : Text.allowsKeyword previous = true) (p : Place) (rest : List Char) :
    feedAll ⟨c, .nothing, false⟩ (tokensFrom previous p (s.render.toList ++ rest)) =
      feedAll ⟨c.putContent s.written, .nothing, false⟩
        (tokensFrom (some '\n') (p.after s.render.toList) rest) := by
  have hr : ∀ rest, s.render.toList ++ rest =
      Keyword.describe.text.toList ++ ' ' :: ((Token.literal s.description.toList).raw ++
        '\n' :: ((String.join (s.items.map Item.render)).toList ++
          (Keyword.close.text.toList ++ '\n' :: rest))) := by
    intro rest
    simp [Content.render, Keyword.text, Token.raw]
  have hn : s.render.toList = s.render.toList ++ [] := (List.append_nil _).symm
  rw [hr, tokensFrom_keyword hp _ _ rfl, feedAll_cons rfl (by simp) rfl, tokensFrom_space,
    feedAll_cons rfl (by simp) rfl, tokensFrom_literal _ _ hs.1 rfl,
    feedAll_cons rfl (by simp) rfl, tokensFrom_newline, feedAll_cons rfl (by simp) rfl,
    feedAll_items hs.2, tokensFrom_keyword Text.allowsKeyword_feed _ _ rfl,
    feedAll_cons rfl (by simp) rfl, tokensFrom_newline, feedAll_cons rfl (by simp) rfl, hn, hr,
    ← register_draft]
  simp [Content.written]

theorem feedAll_renderAll {l : List Content} (hl : ∀ s ∈ l, s.Writable) (c : Catalogue)
    {previous : Option Char} (hp : Text.allowsKeyword previous = true) (p : Place) :
    feedAll ⟨c, .nothing, false⟩ (tokensFrom previous p (Content.renderAll l).toList) =
      .ok ⟨(l.map Content.written).foldl Catalogue.putContent c, .nothing, false⟩ := by
  induction l generalizing c previous p with
  | nil => simp [Content.renderAll, feedAll]
  | cons s l ih =>
    have hj : Content.renderAll (s :: l) = s.render ++ Content.renderAll l := by
      simp [Content.renderAll]
    rw [hj, String.toList_append, feedAll_content (hl s (by simp)) c hp,
      ih (fun t ht => hl t (by simp [ht])) _ Text.allowsKeyword_feed]
    rfl

/-- **Reading a spec file gives back the contents that were written to it**: each suite stands where
its description is first named, holds the specs of all suites with that description in their order
and the last body of each hook, and nothing has been run. -/
theorem read_renderAll (l : List Content) (hl : ∀ s ∈ l, s.Writable) :
    let c := Catalogue.ofContents (l.map Content.written)
    read (Content.renderAll l).toList = .ok c ∧
      Table.keys c = (l.map Content.description).eraseDups ∧
      ∀ d s, c.suite? d = some s →
        s.description = d ∧ s.ran = false ∧
        s.specs = Suite.owned d
          ((Catalogue.itemsOf (l.map Content.written) d).filterMap Item.spec?) ∧
        s.hooks = Table.ofList
          ((Catalogue.itemsOf (l.map Content.written) d).filterMap Item.hook?) ∧
        ∀ x ∈ s.specs, x.assertions = [] := by
  intro c
  refine ⟨?_, ?_, ?_⟩
  · rw [read, tokens, feedAll_renderAll hl [] rfl]
    rfl
  · rw [Catalogue.keys_ofContents, List.map_map]
    rfl
  · intro d s hs
    rw [Catalogue.suite?_ofContents] at hs
    split at hs
    · cases hs
      rw [Suite.foldl_put]
      refine ⟨rfl, rfl, List.nil_append _, rfl, ?_⟩
      intro x hx
      rw [List.nil_append] at hx
      exact Suite.assertions_of_mem_owned hx
    · cases hs

/-- Titles with quotes in them, bodies with comments, loose quotes, returns and words that begin
like keywords, a hook given twice and a suite named twice. -/
theorem read_renderAll_stray :
    let l : List Content :=
      [⟨"it's 'odd'", [.hook .before "a // b", .spec "end" "x' 'y ended", .hook .before "'"]⟩,
        ⟨"// '", []⟩,
        ⟨"it's 'odd'", [.spec "" "bit\r\n__it"]⟩]
    (∀ s ∈ l, s.Writable) ∧
      read (Content.renderAll l).toList = .ok (.ofContents (l.map Content.written)) := by
  intro l
  have h : ∀ s ∈ l, s.Writable := by
    unfold l
    decide +kernel
  exact ⟨h, (read_renderAll l h).1⟩

end Outline

end SpecEngine
