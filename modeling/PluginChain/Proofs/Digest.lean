import PluginChain.Digest

/-!
# What a digest looks like

Mixing keeps the eight words of the state, so that a digest is a text of sixteen hexadecimal digits
whatever was digested.
-/

set_option autoImplicit false

namespace PluginChain.Digest

theorem length_compress {state : List UInt32} (h : state.length = 8) (block : List UInt32) :
    (compress state block).length = 8 := by
  rw [compress, List.length_zipWith, h]
  rfl

theorem length_sha256 (message : List UInt8) : (sha256 message).length = 8 := by
  have hfold : ∀ (bs : List (List UInt32)) (state : List UInt32), state.length = 8 →
      (bs.foldl compress state).length = 8 := by
    intro bs
    induction bs with
    | nil => exact fun state h => h
    | cons b bs ih => exact fun state h => ih _ (length_compress h b)
  exact hfold _ _ rfl

theorem length_ofText (s : String) : (ofText s).length = 16 := by
  have hwords : ((sha256 s.toUTF8.toList).take 2).length = 2 := by
    rw [List.length_take, length_sha256]
    rfl
  rw [ofText, String.length_ofList]
  match (sha256 s.toUTF8.toList).take 2, hwords with
  | [a, b], _ => simp [hexWord]

theorem ofText_ne_empty (s : String) : ofText s ≠ "" := by
  intro h
  have hlen := length_ofText s
  rw [h] at hlen
  exact absurd hlen (by decide)

/-- The character is a hexadecimal digit as it is written. -/
def IsDigit (c : Char) : Prop := ∃ n < 16, hexDigit n = c

theorem isDigit_of_mem_ofText {s : String} {c : Char} (h : c ∈ (ofText s).toList) : IsDigit c := by
  rw [ofText, String.toList_ofList, List.mem_flatMap] at h
  obtain ⟨w, -, hc⟩ := h
  obtain ⟨i, -, rfl⟩ := List.mem_map.1 hc
  exact ⟨_, Nat.mod_lt _ (by decide), rfl⟩

/-- What a digit is not. -/
theorem IsDigit.ne {c d : Char} (h : IsDigit c) (hd : ∀ n < 16, hexDigit n ≠ d) : c ≠ d := by
  obtain ⟨n, hn, rfl⟩ := h
  exact hd n hn

end PluginChain.Digest
