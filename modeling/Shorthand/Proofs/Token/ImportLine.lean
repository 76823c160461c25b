import Shorthand.Insertion.Header
import Shorthand.Proofs.Token.Written

/-!
The line that imports a type, as tokens.

Where each word of the name of a type is an identifier the line is read as the tokens of one import
(`taken_importLine`).
-/

namespace Shorthand

/-- The line that imports a type of which the words are identifiers is read as an import. -/
lemma readAs_importLine {name first : String} {words : List String}
    (h : Ty.segments name = first :: words) (hwords : ∀ word ∈ first :: words, IsIdentifier word) :
    ReadAs (fun _ => True) (importLine name).toList (importKinds first words) := by
  have hline : (importLine name).toList
      = "import".toList ++ (' ' :: (first.toList ++ furtherText words) ++ [';']) := by
    rw [importLine, String.toList_append, String.toList_append, toList_segments h]
    simp
  have hkeyword : ReadAs (Lexeme.Stops isIdentContinue) "import".toList [.keyword .importKw] :=
    readAs_word ⟨_, _, rfl, rfl, rfl⟩ (List.all_eq_true.mp (by decide))
  have hsemi : ReadAs (fun _ => True) [';'] [.punct .semi] := .separator (by decide)
  have hname := (readAs_name hwords).space.append hsemi fun rest _ => by
    rintro c ⟨⟩
    rfl
  rw [hline]
  refine hkeyword.append hname fun rest _ => ?_
  rintro c ⟨⟩
  rfl

/-- The line is taken off a text wherever it stands. -/
theorem taken_importLine {name first : String} {words : List String}
    (h : Ty.segments name = first :: words) (hwords : ∀ word ∈ first :: words, IsIdentifier word)
    (rest : List Char) (pos : Nat) :
    ∃ ps, Taken rest pos (importLine name).toList ps ∧ pieceKinds ps = importKinds first words := by
  obtain ⟨ps, hps, hkinds, -⟩ := readAs_importLine h hwords rest trivial pos
  exact ⟨ps, hps, hkinds⟩

end Shorthand
