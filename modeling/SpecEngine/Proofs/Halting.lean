import SpecEngine.Proofs.Comments

/-!
# Behind the halt

A file is read up to the line that halts it; what stands behind that line makes no difference.

* `tokens_append_haltLine`: the tokens up to the end of the line do not depend on what follows;
* `feedAll_append_halt`: nothing is read behind a halt, unless the halt stands in a comment;
* `read_past_halt`: two files that are the same up to a halt are read alike.
-/

namespace SpecEngine

/-- The tokens of a text with the halt on its last line, and of a text behind that line. -/
theorem tokens_append_haltLine (p x : List Char) :
    tokens (p ++ "__END__\n".toList ++ x) =
      tokens (p ++ "__END__\n".toList) ++
        (tokens x).map (.shift (Text.bytes (p ++ "__END__".toList) + 1)
          ((p ++ "__END__".toList).count '\n' + 1)) := by
  have hl : (p ++ "__END__".toList).getLast? ≠ some '\r' := by
    rw [List.getLast?_append]
    simp
  have hline : tokens (p ++ "__END__\n".toList) = tokens (p ++ "__END__".toList) ++
      [⟨.newline false, Place.first.after (p ++ "__END__".toList)⟩] := by
    simpa [tokens] using tokens_append_feed hl []
  have hfile : p ++ "__END__\n".toList ++ x = p ++ "__END__".toList ++ '\n' :: x := by simp
  rw [hfile, tokens_append_feed hl, hline, List.append_assoc]
  rfl

namespace Outline

/-- Nothing is read behind a halt, where the reader comes to it outside comments or not at all. -/
theorem feedAll_append_halt {ts : List Located} (hc : ∀ o, Reaches ts o → o.commenting = false)
    (q : Place) (us : List Located) :
    feedAll {} (ts ++ ⟨.keyword .halt, q⟩ :: us) = feedAll {} ts := by
  have hstart : ({} : Outline).commenting = true → ({} : Outline).opened.inBody = false :=
    fun h => nomatch h
  by_cases hh : Halts .outside ts
  · exact feedAll_append_of_halts hstart hh _
  · rw [feedAll_append hstart hh]
    cases hf : feedAll {} ts with
    | error e => rfl
    | ok o =>
      show feedAll o _ = .ok o
      rw [feedAll, hc o ⟨hh, hf⟩, if_neg Bool.false_ne_true, if_pos rfl]

/-- **Nothing behind the halt matters.**  Where the reader comes to a halt outside comments, or does
not come to it, the file is read as what its tokens before the halt make: it fails with their error,
or for what they leave open, or has their suites, whatever follows the line of the halt. -/
theorem read_past_halt {p : List Char} {ts : List Located} {q r : Place}
    (ht : tokens (p ++ "__END__\n".toList) =
      ts ++ [⟨.keyword .halt, q⟩, ⟨.newline false, r⟩])
    (hc : ∀ o, Reaches ts o → o.commenting = false) :
    (∀ x y, read (p ++ "__END__\n".toList ++ x) = read (p ++ "__END__\n".toList ++ y)) ∧
      ∀ x, read (p ++ "__END__\n".toList ++ x) = (feedAll {} ts).bind finish := by
  have hread : ∀ x, read (p ++ "__END__\n".toList ++ x) = (feedAll {} ts).bind finish := by
    intro x
    rw [read_eq_bind, tokens_append_haltLine, ht, List.append_assoc]
    exact congrArg (·.bind finish) (feedAll_append_halt hc q _)
  exact ⟨fun x y => (hread x).trans (hread y).symm, hread⟩

/-- A halt behind a comment marker in the body of a spec: what is open stays open, and the text that
would close it is not read. -/
theorem read_past_halt_in_body :
    let p := "describe 'a' it 'b' // ".toList
    let ts := tokens p
    tokens (p ++ "__END__\n".toList) =
      ts ++ [⟨.keyword .halt, ⟨23, 1, 24⟩⟩, ⟨.newline false, ⟨30, 1, 31⟩⟩] ∧
    (∀ o, Reaches ts o → o.commenting = false) ∧
    read (p ++ "__END__\n".toList ++ "end end".toList) =
      read (p ++ "__END__\n".toList ++ "it 'c'".toList) ∧
    (match read (p ++ "__END__\n".toList ++ "end end".toList) with
      | .ok _ => none
      | .error e => some e) = some (.unterminated .it ⟨13, 1, 14⟩) := by
  intro p ts
  have ht : tokens (p ++ "__END__\n".toList) =
      ts ++ [⟨.keyword .halt, ⟨23, 1, 24⟩⟩, ⟨.newline false, ⟨30, 1, 31⟩⟩] := by
    decide +kernel
  have hc : ∀ o, Reaches ts o → o.commenting = false := by
    rintro o ⟨-, hf⟩
    have hb : (feedAll {} ts).toOption.all (fun o => !o.commenting) = true := by decide +kernel
    rw [hf] at hb
    simpa [Except.toOption] using hb
  refine ⟨ht, hc, (read_past_halt ht hc).1 _ _, ?_⟩
  rw [(read_past_halt ht hc).2]
  decide +kernel

end Outline

end SpecEngine
