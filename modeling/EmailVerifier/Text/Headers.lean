import EmailVerifier.Text.Lines
import Mathlib.Data.List.TakeWhile

/-! Mail messages as RFC 5322 reads them.

The lines up to the first empty one are the header block and what follows is the body. A
line that starts with a blank continues the line before it, and a field is named by what
stands before its first colon.
-/

set_option autoImplicit false

namespace EmailVerifier.Text

def isBlank (b : UInt8) : Bool := b = 32 || b = 9

def trimBlanks (s : Str) : Str := ((s.dropWhile isBlank).reverse.dropWhile isBlank).reverse

def folded (line : Str) : Bool := line.head?.any isBlank

def unfoldLines : List Str → List Str
  | [] => []
  | line :: more =>
    match unfoldLines more with
    | [] => [line]
    | next :: others => if folded next then (line ++ next) :: others else line :: next :: others

def headerLines (s : Str) : List Str := (splitCRLF s).takeWhile (· ≠ [])

def bodyOf (s : Str) : Str := List.intercalate crlf ((splitCRLF s).dropWhile (· ≠ [])).tail

def parseMessage (s : Str) : Option (List (Str × Str) × Str) :=
  ((unfoldLines (headerLines s)).mapM (cut · 58)).map (·, bodyOf s)

/-! ## Lines -/

section
variable (lines : List Str) (clean : ∀ line ∈ lines, ¬ crlf <:+: line)
include clean

lemma splitCRLF_lines (rest : Str) : splitCRLF (joinCRLF lines ++ rest) = lines ++ splitCRLF rest := by
  induction lines with
  | nil => rfl
  | cons line lines ih =>
    have others := ih fun other member => clean other (List.mem_cons_of_mem line member)
    have first := splitCRLF_line line (joinCRLF lines ++ rest) (clean line List.mem_cons_self)
    rw [others] at first
    simpa [joinCRLF] using first

lemma splitCRLF_message (body : Str) : splitCRLF (joinCRLF lines ++ crlf ++ body) = lines ++ [] :: splitCRLF body := by
  have empty := splitCRLF_line [] body (by simp [crlf])
  rw [List.append_assoc, splitCRLF_lines lines clean]
  simpa using empty

variable (some : ∀ line ∈ lines, line ≠ [])
include some

lemma headerLines_message (body : Str) : headerLines (joinCRLF lines ++ crlf ++ body) = lines := by
  unfold headerLines
  rw [splitCRLF_message lines clean, List.takeWhile_append_of_pos (by simpa using some)]
  simp

lemma bodyOf_message (body : Str) : bodyOf (joinCRLF lines ++ crlf ++ body) = body := by
  unfold bodyOf
  rw [splitCRLF_message lines clean, List.dropWhile_append_of_pos (by simpa using some)]
  simp [intercalate_splitCRLF]

lemma parseMessage_message (body : Str) :
    parseMessage (joinCRLF lines ++ crlf ++ body) = ((unfoldLines lines).mapM (cut · 58)).map (·, body) := by
  unfold parseMessage
  rw [headerLines_message lines clean some, bodyOf_message lines clean some]

end

/-! ## Folding -/

lemma unfoldLines_cons (line : Str) (more : List Str) : ∃ start others,
    unfoldLines (line :: more) = (line ++ start) :: others := by
  rw [unfoldLines]
  cases unfoldLines more with
  | nil => exact ⟨[], [], by simp⟩
  | cons next others =>
    dsimp only
    split
    · exact ⟨next, others, rfl⟩
    · exact ⟨[], next :: others, by simp⟩

lemma unfoldLines_unfolded (lines : List Str) (flat : ∀ line ∈ lines.tail, folded line = false) :
    unfoldLines lines = lines := by
  induction lines with
  | nil => rfl
  | cons line more ih =>
    have rest : unfoldLines more = more := ih fun other member => flat other (List.mem_of_mem_tail member)
    rw [unfoldLines, rest]
    cases more with
    | nil => rfl
    | cons next others => simp [flat next List.mem_cons_self]

lemma folded_of_mem_unfoldLines (lines : List Str) : ∀ line ∈ (unfoldLines lines).tail, folded line = false := by
  induction lines with
  | nil => simp [unfoldLines]
  | cons line more ih =>
    rw [unfoldLines]
    cases same : unfoldLines more with
    | nil => simp
    | cons next others =>
      rw [same] at ih
      dsimp only
      split
      · exact ih
      · rename_i flat
        intro other member
        rcases List.mem_cons.mp member with rfl | member
        · simpa using flat
        · exact ih other member

/-! ## Fields -/

lemma cut_append {name : Str} {sep : UInt8} (bare : sep ∉ name) (rest : Str) :
    cut (name ++ sep :: rest) sep = some (name, rest) := by
  have before : ∀ b ∈ name, decide (b ≠ sep) = true := by
    intro b member
    have other : b ≠ sep := fun same => bare (same ▸ member)
    simpa using other
  unfold cut
  rw [List.dropWhile_append_of_pos before, List.takeWhile_append_of_pos before]
  simp

lemma cut_eq_some {s before after : Str} {sep : UInt8} (found : cut s sep = some (before, after)) :
    sep ∉ before ∧ s = before ++ sep :: after := by
  unfold cut at found
  split at found
  · cases found
  · rename_i b rest same
    cases found
    have stops : b = sep := by
      have first := List.head?_dropWhile_not (fun x => decide (x ≠ sep)) s
      rw [same] at first
      simpa using first
    refine ⟨?_, ?_⟩
    · intro member
      simpa using List.mem_takeWhile_imp member
    · rw [← stops, ← same, stops]
      exact (List.takeWhile_append_dropWhile ..).symm

lemma folded_append (name : Str) (b : UInt8) (rest : Str) (visible : isBlank b = false) :
    folded (name ++ b :: rest) = folded name := by
  cases name <;> simp [folded, visible]

end EmailVerifier.Text
