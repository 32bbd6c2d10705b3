/-!
# Blank characters and trimming

A character is *blank* when Unicode gives it the property `White_Space`.  Names of plugins and steps
are compared after `trim`, and the same blanks separate words in scripts.

* `trim_trim` says that trimming twice changes nothing more.
* `IsTrimmed` is the form of a text that trimming leaves alone.
-/

set_option autoImplicit false

namespace PluginChain.Text

/-- The characters with the Unicode property `White_Space`. -/
def isBlank (c : Char) : Bool :=
  let n := c.toNat
  (9 ≤ n && n ≤ 13) || n == 0x20 || n == 0x85 || n == 0xA0 || n == 0x1680 ||
    (0x2000 ≤ n && n ≤ 0x200A) || n == 0x2028 || n == 0x2029 || n == 0x202F || n == 0x205F ||
    n == 0x3000

/-- A character list without its leading blanks. -/
def dropBlanks (cs : List Char) : List Char := cs.dropWhile isBlank

/-- A character list without its trailing blanks. -/
def dropBlanksRight (cs : List Char) : List Char := (dropBlanks cs.reverse).reverse

/-- A text without the blanks at its two ends. -/
def trim (s : String) : String := String.ofList (dropBlanksRight (dropBlanks s.toList))

/-- A text without the blanks at its start. -/
def trimLeft (s : String) : String := String.ofList (dropBlanks s.toList)

/-- A text without the blanks at its end. -/
def trimRight (s : String) : String := String.ofList (dropBlanksRight s.toList)

/-- The trimmed form of a name, or nothing where no character is left of it. -/
def nonBlank? (s : String) : Option String :=
  let t := trim s
  if t.isEmpty then none else some t

/-- The maximal runs of characters that are not blank, in order. -/
def words (s : String) : List String :=
  let step (c : Char) : List String × List Char → List String × List Char
    | (done, run) =>
      if isBlank c then
        (if run.isEmpty then done else String.ofList run :: done, [])
      else (done, c :: run)
  let (done, run) := s.toList.foldr step ([], [])
  if run.isEmpty then done else String.ofList run :: done

/-! ## Trimming twice is trimming once -/

theorem dropBlanks_dropBlanks (cs : List Char) : dropBlanks (dropBlanks cs) = dropBlanks cs := by
  induction cs with
  | nil => rfl
  | cons c r ih =>
    by_cases h : isBlank c
    · simp only [dropBlanks, List.dropWhile_cons, h, if_true] at ih ⊢
      exact ih
    · simp [dropBlanks, h]

/-- A list that starts with no blank still starts with none once blanks are dropped from its end. -/
theorem dropBlanks_dropBlanksRight {cs : List Char} (h : dropBlanks cs = cs) :
    dropBlanks (dropBlanksRight cs) = dropBlanksRight cs := by
  cases cs with
  | nil => rfl
  | cons c r =>
    have hc : isBlank c = false := by
      cases hb : isBlank c with
      | false => rfl
      | true =>
        have hl : (dropBlanks (c :: r)).length ≤ r.length := by
          simp only [dropBlanks, List.dropWhile_cons, hb, if_true]
          exact (List.dropWhile_sublist _).length_le
        rw [h] at hl
        exact absurd hl (by simp)
    have hp : dropBlanksRight (c :: r) = c :: dropBlanksRight r := by
      simp only [dropBlanksRight, dropBlanks, List.reverse_cons, List.dropWhile_append]
      split
      · next he =>
        have he' : List.dropWhile isBlank r.reverse = [] := List.isEmpty_iff.1 he
        simp [hc, he']
      · simp
    rw [hp]
    simp [dropBlanks, hc]

/-- The form of a text that trimming leaves alone. -/
def IsTrimmed (s : String) : Prop := trim s = s

/-- Trimming a trimmed text changes nothing. -/
theorem trim_trim (s : String) : trim (trim s) = trim s := by
  have h1 : dropBlanks (dropBlanksRight (dropBlanks s.toList))
      = dropBlanksRight (dropBlanks s.toList) :=
    dropBlanks_dropBlanksRight (dropBlanks_dropBlanks _)
  simp only [trim, String.toList_ofList, h1]
  simp only [dropBlanksRight, List.reverse_reverse, dropBlanks_dropBlanks]

theorem isTrimmed_trim (s : String) : IsTrimmed (trim s) := trim_trim s

/-- A text without blanks is trimmed. -/
theorem isTrimmed_of_not_blank {s : String} (h : ∀ c ∈ s.toList, isBlank c = false) : IsTrimmed s := by
  have hdrop : ∀ cs : List Char, (∀ c ∈ cs, isBlank c = false) → dropBlanks cs = cs := by
    intro cs hcs
    cases cs with
    | nil => rfl
    | cons c r => simp [dropBlanks, hcs c List.mem_cons_self]
  have hright := hdrop s.toList.reverse fun c hc => h c (List.mem_reverse.1 hc)
  rw [IsTrimmed, trim, hdrop _ h, dropBlanksRight, hright, List.reverse_reverse, String.ofList_toList]

end PluginChain.Text
