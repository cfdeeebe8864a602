import AdaptiveBatch.Text.Hex

/-!
# Hexadecimal digits, read again
-/

namespace AdaptiveBatch
namespace Text

theorem hexDigit?_lowerHex : ∀ d, d < 16 → hexDigit? (lowerHex d) = some d := by decide

theorem hexDigit?_upperHex : ∀ d, d < 16 → hexDigit? (upperHex d) = some d := by decide

/-- Four digits are read as the number they were made from. -/
theorem hexValue?_hex4 {digit : Nat → Char} (hdigit : ∀ d, d < 16 → hexDigit? (digit d) = some d)
    {n : Nat} (hn : n < 65536) : hexValue? (hex4 digit n) = some n := by
  have hmod : ∀ k, hexDigit? (digit (k % 16)) = some (k % 16) := fun k =>
    hdigit _ (Nat.mod_lt k (by decide))
  simp only [hexValue?, hex4, List.foldlM_cons, List.foldlM_nil, hmod, Option.map_some,
    Option.bind_eq_bind, Option.bind_some, Option.pure_def]
  congr 1
  omega

theorem takeHex?_hex4 {digit : Nat → Char} (hdigit : ∀ d, d < 16 → hexDigit? (digit d) = some d)
    {n : Nat} (hn : n < 65536) (r : List Char) :
    takeHex? 4 (hex4 digit n ++ r) = some (n, r) := by
  have htake : (hex4 digit n ++ r).take 4 = hex4 digit n := rfl
  have hdrop : (hex4 digit n ++ r).drop 4 = r := rfl
  simp only [takeHex?, htake, hdrop, hexValue?_hex4 hdigit hn]
  rfl

end Text
end AdaptiveBatch
