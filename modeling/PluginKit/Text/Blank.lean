/-!
# Blank characters

White space in the sense of the Unicode property `White_Space`, and cutting it off the two
ends of a text.
-/

namespace PluginKit

namespace Text

/-- The characters with the property `White_Space`. -/
def isBlank (c : Char) : Bool :=
  let n := c.toNat
  (9 ≤ n && n ≤ 13) || n == 0x20 || n == 0x85 || n == 0xA0 || n == 0x1680 ||
    (0x2000 ≤ n && n ≤ 0x200A) || n == 0x2028 || n == 0x2029 || n == 0x202F ||
    n == 0x205F || n == 0x3000

def trimStart (text : List Char) : List Char :=
  text.dropWhile isBlank

def trimEnd (text : List Char) : List Char :=
  (text.reverse.dropWhile isBlank).reverse

def trim (text : List Char) : List Char :=
  trimEnd (trimStart text)

theorem trimStart_eq_self {c : Char} {rest : List Char} (h : isBlank c = false) :
    trimStart (c :: rest) = c :: rest := by
  simp [trimStart, h]

@[simp] theorem trim_nil : trim [] = [] := rfl

theorem trimStart_append_of_blank {blanks : List Char} (text : List Char)
    (h : ∀ c ∈ blanks, isBlank c = true) : trimStart (blanks ++ text) = trimStart text := by
  induction blanks with
  | nil => rfl
  | cons c rest ih =>
      have hc : isBlank c = true := h c (by simp)
      have hrest : ∀ d ∈ rest, isBlank d = true := fun d hd => h d (by simp [hd])
      simpa [trimStart, hc] using ih hrest

end Text

end PluginKit
