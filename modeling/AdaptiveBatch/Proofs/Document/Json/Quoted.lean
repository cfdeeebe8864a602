import AdaptiveBatch.Document.Json.Quoted
import AdaptiveBatch.Proofs.Text.Hex

/-!
# Quoted text in JSON, read again

Each character is written as itself or as an escape, so the reader finds as many pieces
as there are characters.  Joined they are the text again, since no escape that is written
is half a character.
-/

namespace AdaptiveBatch
namespace Json

/-- What may stand for a character between quotes. -/
inductive Stands (c : Char) : List Char → Prop
  | short {e : Char} (reads : escaped? e = some c) (other : e ≠ 'u') : Stands c ['\\', e]
  | unit {h₁ h₂ h₃ h₄ : Char} (reads : Text.hexValue? [h₁, h₂, h₃, h₄] = some c.toNat)
    (low : c.toNat < 32) : Stands c ['\\', 'u', h₁, h₂, h₃, h₄]
  | plain (printable : ¬ c < ' ') (other : c ≠ '\\') (unquoted : c ≠ '"') : Stands c [c]

theorem stands_escape (c : Char) : Stands c (escape c) := by
  unfold escape
  split
  case h_8 quotes backslash _ _ _ _ _ =>
    split
    · rename_i hcontrol
      have hlow : c.toNat < 32 := hcontrol
      exact .unit (Text.hexValue?_hex4 Text.hexDigit?_lowerHex (by omega)) hlow
    · rename_i hprintable
      exact .plain hprintable backslash quotes
  all_goals exact .short rfl (by decide)

/-- A piece for a character in front of others. -/
theorem pieces_of_stands {c : Char} {t : List Char} (h : Stands c t) {r r' : List Char}
    {ps : List Piece} (hrest : pieces r = some (ps, r')) :
    ∃ p, pieces (t ++ r) = some (p :: ps, r') ∧ join? (p :: ps) = (join? ps).map (c :: ·) := by
  cases h with
  | short reads other =>
    rename_i e
    refine ⟨.char c, ?_, rfl⟩
    rw [List.cons_append, List.singleton_append, pieces, reads, hrest]
    · rfl
    · exact fun _ _ _ _ _ h _ => other h
  | unit reads low =>
    refine ⟨.unit c.toNat, ?_, ?_⟩
    · simp only [List.cons_append, List.nil_append]
      rw [pieces, reads, hrest]
      rfl
    · have hhigh : isHighHalf c.toNat = false := by
        unfold isHighHalf
        rw [decide_eq_false (by omega), Bool.false_and]
      have hlow : isLowHalf c.toNat = false := by
        unfold isLowHalf
        rw [decide_eq_false (by omega), Bool.false_and]
      rw [join?.eq_def]
      dsimp only
      rw [hhigh, hlow, if_neg Bool.false_ne_true, if_neg Bool.false_ne_true, Char.ofNat_toNat]
  | plain printable other unquoted =>
    refine ⟨.char c, ?_, rfl⟩
    rw [List.singleton_append, pieces, if_neg (not_or.mpr ⟨printable, other⟩), hrest]
    · rfl
    · exact unquoted
    · exact fun _ _ _ _ _ h _ => other h
    · exact fun _ _ h _ => other h

theorem pieces_escape (cs r : List Char) :
    ∃ ps, pieces (cs.flatMap escape ++ '"' :: r) = some (ps, r) ∧ join? ps = some cs := by
  induction cs with
  | nil => exact ⟨[], by rw [List.flatMap_nil, List.nil_append, pieces], rfl⟩
  | cons c cs ih =>
    obtain ⟨ps, hps, hjoin⟩ := ih
    obtain ⟨p, hp, hfirst⟩ := pieces_of_stands (stands_escape c) hps
    refine ⟨p :: ps, ?_, ?_⟩
    · rw [List.flatMap_cons, List.append_assoc, hp]
    · rw [hfirst, hjoin]
      rfl

end Json
end AdaptiveBatch
