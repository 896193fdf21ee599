import Mathlib.Data.List.DropRight
import ThreadRegions.Diagnostic.Render
import ThreadRegions.Proofs.LineAt

/-!
# Where the caret stands

A diagnostic is shown with the line it is about and, in the row below, a caret.  The row of the
caret is as wide as the bytes of the line up to the place of the diagnostic, while the row above it
is as wide as the characters.  So the caret stands below the offending character as long as only
ASCII is shown before that character, and too far to the right otherwise.

## Main Definitions

* `Offends`: a character of a line that is shown

## Main Results

* `lines_render`: the rows of a diagnostic
* `shownLine_split`: the offending character in the row of the source line
* `caret_column`: the column of the caret and that of the offending character
-/

namespace ThreadRegions

/-! ### Cutting indentation and blanks -/

section Cutting

variable {pre post : List Char} {c : Char}

/-- A character that is not part of the indentation ends it. -/
theorem takeWhile_isIndent (h : ∃ x ∈ pre ++ [c], ¬ isIndent x) :
    (pre ++ c :: post).takeWhile isIndent = pre.takeWhile isIndent := by
  rw [List.takeWhile_append]
  split
  · next hlength =>
    have hall : ∀ x ∈ pre, isIndent x := by
      have heq := (List.takeWhile_prefix isIndent).eq_of_length hlength
      exact List.takeWhile_eq_self_iff.1 heq
    obtain ⟨x, hx, hnot⟩ := h
    rcases List.mem_append.1 hx with hx | hx
    · exact absurd (hall x hx) hnot
    · obtain rfl := List.mem_singleton.1 hx
      rw [List.takeWhile_cons_of_neg hnot, List.append_nil, List.takeWhile_eq_self_iff.2 hall]
  · rfl

/-- What is left behind the indentation begins further to the left of such a character. -/
theorem dropWhile_isIndent (h : ∃ x ∈ pre ++ [c], ¬ isIndent x) :
    (pre ++ c :: post).dropWhile isIndent = pre.dropWhile isIndent ++ c :: post := by
  -- both sides are the text without its indentation
  have hsplit : (pre ++ c :: post).takeWhile isIndent ++ (pre ++ c :: post).dropWhile isIndent =
      pre.takeWhile isIndent ++ pre.dropWhile isIndent ++ c :: post := by
    rw [List.takeWhile_append_dropWhile, List.takeWhile_append_dropWhile]
  rw [takeWhile_isIndent h, List.append_assoc] at hsplit
  exact List.append_cancel_left hsplit

/-- A character that is not part of the blanks at the end is kept. -/
theorem rdropWhile_isBlank (front : List Char) (h : ∃ x ∈ c :: post, ¬ isBlank x) :
    ∃ right, (front ++ c :: post).rdropWhile isBlank = front ++ c :: right := by
  have hkept : (c :: post).rdropWhile isBlank ≠ [] := by
    obtain ⟨x, hx, hnot⟩ := h
    exact fun hnil => hnot (List.rdropWhile_eq_nil_iff.1 hnil x hx)
  have hsplit : (front ++ c :: post).rdropWhile isBlank =
      front ++ (c :: post).rdropWhile isBlank := by
    have hrest : ¬ ((c :: post).reverse.dropWhile isBlank).isEmpty := by
      rw [List.isEmpty_iff, ← List.reverse_eq_nil_iff]
      exact hkept
    rw [List.rdropWhile, List.reverse_append, List.dropWhile_append, if_neg hrest,
      List.reverse_append, List.reverse_reverse, List.rdropWhile]
  obtain ⟨d, right, hcons⟩ := List.exists_cons_of_ne_nil hkept
  have hprefix := List.rdropWhile_prefix isBlank (c :: post)
  rw [hcons] at hprefix
  obtain ⟨rfl, -⟩ := List.cons_prefix_cons.1 hprefix
  exact ⟨right, by rw [hsplit, hcons]⟩

/-- The offending character in the row of its line. -/
theorem shownLine_split (hlead : ∃ x ∈ pre ++ [c], ¬ isIndent x)
    (htrail : ∃ x ∈ c :: post, ¬ isBlank x) :
    ∃ right, shownLine (pre ++ c :: post) = pre.dropWhile isIndent ++ c :: right := by
  have hshown : shownLine (pre ++ c :: post) =
      ((pre ++ c :: post).dropWhile isIndent).rdropWhile isBlank := rfl
  rw [hshown, dropWhile_isIndent hlead]
  exact rdropWhile_isBlank _ htrail

end Cutting

/-- The newline of a line is among the blanks at its end. -/
theorem newline_not_mem_shownLine {cs before text after : List Char}
    (h : CutsLine cs before text after) : '\n' ∉ shownLine text := by
  have hshown : shownLine text = (text.dropWhile isIndent).rdropWhile isBlank := rfl
  rw [hshown]
  rcases h.ends with ⟨body, rfl, hbody⟩ | ⟨hbody, -⟩
  · have hdrop : (body ++ ['\n']).dropWhile isIndent = body.dropWhile isIndent ++ ['\n'] :=
      dropWhile_isIndent ⟨'\n', by simp, by decide⟩
    rw [hdrop, List.rdropWhile_concat_pos _ _ _ (by decide)]
    intro hmem
    have hmem := (List.rdropWhile_prefix isBlank _).subset hmem
    exact hbody ((List.dropWhile_suffix _).subset hmem)
  · intro hmem
    have hmem := (List.rdropWhile_prefix isBlank _).subset hmem
    exact hbody ((List.dropWhile_suffix _).subset hmem)

/-! ### Rows -/

/-- A number is written in digits. -/
theorem newline_not_mem_toString (n : Nat) : '\n' ∉ (toString n).toList := by
  rw [Nat.toString_eq_ofList_toDigits, String.toList_ofList]
  intro hmem
  exact absurd (Nat.isDigit_of_mem_toDigits (by decide) (by decide) hmem) (by decide)

/-- A text of three lines. -/
theorem lines_three {a b c : List Char} (ha : '\n' ∉ a) (hb : '\n' ∉ b) (hc : '\n' ∉ c) :
    lines (a ++ ['\n'] ++ b ++ ['\n'] ++ c ++ ['\n']) =
      [a ++ ['\n'], b ++ ['\n'], c ++ ['\n']] := by
  simp only [List.append_assoc, List.cons_append, List.nil_append]
  rw [lines_append_newline, lines_body_newline ha, lines_append_newline, lines_body_newline hb,
    lines_body_newline hc]
  rfl

/-- What stands before the caret in its row. -/
def caretIndent (line : Line) : List Char :=
  List.replicate ((toString line.number).toList.length + 1) ' ' ++ ['|', ' '] ++
    List.replicate (line.column - utf8Length (line.text.takeWhile isIndent)) '-'

/-- The caret stands behind the margin and as many dashes as there are bytes. -/
theorem length_caretIndent (line : Line) :
    (caretIndent line).length = (toString line.number).toList.length + 3 +
      (line.column - utf8Length (line.text.takeWhile isIndent)) := by
  simp only [caretIndent, List.length_append, List.length_replicate, List.length_cons,
    List.length_nil]

theorem caret_not_mem_caretIndent (line : Line) : '^' ∉ caretIndent line := by
  simp [caretIndent]

/-- The three rows of an excerpt, each with its newline. -/
theorem excerpt_eq (line : Line) :
    excerpt line = padLeft ((toString line.number).toList.length + 2) ' ' ['|'] ++ ['\n'] ++
      ((toString line.number).toList ++ [' ', '|', ' '] ++ shownLine line.text) ++ ['\n'] ++
      (caretIndent line ++ ['^']) ++ ['\n'] := by
  simp [excerpt, padLeft, caretIndent]

/-- The rows of an excerpt. -/
theorem lines_excerpt {line : Line} (h : '\n' ∉ shownLine line.text) :
    ∃ top, lines (excerpt line) =
      [top, (toString line.number).toList ++ [' ', '|', ' '] ++ shownLine line.text ++ ['\n'],
        caretIndent line ++ ['^', '\n']] := by
  have htop : '\n' ∉ padLeft ((toString line.number).toList.length + 2) ' ' ['|'] := by
    simp [padLeft]
  have hrow : '\n' ∉ (toString line.number).toList ++ [' ', '|', ' '] ++ shownLine line.text := by
    simpa [h] using newline_not_mem_toString line.number
  have hcaret : '\n' ∉ caretIndent line ++ ['^'] := by simp [caretIndent]
  rw [excerpt_eq, lines_three htop hrow hcaret, List.append_assoc _ ['^']]
  exact ⟨_, rfl⟩

/-- The rows of a diagnostic about a line: what is wrong, and the rows of the line. -/
theorem lines_render {d : Diagnostic} {source : String} {line : Line}
    (h : lineAt source.toList d.position.offset = some line) :
    ∃ head, lines (d.render source).toList = head ++ lines (excerpt line) := by
  have hrender : ∃ front, (d.render source).toList = front ++ '\n' :: excerpt line := by
    have hnewline : (toString "\n").toList = ['\n'] := by decide
    unfold Diagnostic.render
    rw [h]
    simp only [String.toList_append, String.toList_ofList]
    rw [hnewline, ← List.append_assoc, List.append_assoc _ ['\n'], List.singleton_append]
    exact ⟨_, rfl⟩
  obtain ⟨front, hfront⟩ := hrender
  exact ⟨lines (front ++ ['\n']), by rw [hfront, lines_append_newline]⟩

/-! ### The two columns -/

/-- Each character takes at least one byte. -/
theorem length_le_utf8Length (cs : List Char) : cs.length ≤ utf8Length cs := by
  induction cs with
  | nil => exact Nat.le_refl 0
  | cons c cs ih =>
    have hpos := c.utf8Size_pos
    rw [List.length_cons, utf8Length_cons]
    omega

/-- A text has as many bytes as characters if each of them takes one byte, and only then. -/
theorem utf8Length_eq_length_iff {cs : List Char} :
    utf8Length cs = cs.length ↔ ∀ c ∈ cs, c.utf8Size = 1 := by
  induction cs with
  | nil => simp
  | cons c cs ih =>
    have hpos := c.utf8Size_pos
    have hle := length_le_utf8Length cs
    rw [List.forall_mem_cons, ← ih, utf8Length_cons, List.length_cons]
    omega

/-- The place of the diagnostic is the first byte of the character `c`.  That character stands in a
line between `pre` and `post`, behind the indentation and before the blanks at the end. -/
structure Offends (d : Diagnostic) (source : String) (before pre : List Char) (c : Char)
    (post after : List Char) : Prop where
  cut : CutsLine source.toList before (pre ++ c :: post) after
  place : d.position.offset = utf8Length before + utf8Length pre
  lead : ∃ x ∈ pre ++ [c], ¬ isIndent x
  trail : ∃ x ∈ c :: post, ¬ isBlank x

/-- The place of a shown character is found in its line. -/
theorem Offends.lineAt_eq {d : Diagnostic} {source : String} {before pre post after : List Char}
    {c : Char} (h : Offends d source before pre c post after) :
    lineAt source.toList d.position.offset =
      some ⟨before.count '\n' + 1, pre ++ c :: post, utf8Length pre⟩ := by
  rw [h.place]
  refine lineAt_of_cutsLine h.cut ?_
  have hpos := c.utf8Size_pos
  rw [utf8Length_append, utf8Length_cons]
  omega

/-- In the last two rows of a diagnostic, the caret stands as many columns to the right of the
offending character as the characters that are shown before it take bytes beyond one each.  So it
stands below that character exactly if all of them take one byte. -/
theorem caret_column {d : Diagnostic} {source : String} {before pre post after : List Char}
    {c : Char} (h : Offends d source before pre c post after) :
    let shown := pre.dropWhile isIndent
    let left := (toString (before.count '\n' + 1)).toList ++ [' ', '|', ' '] ++ shown
    ∃ head right under,
      lines (d.render source).toList = head ++ [left ++ c :: right, under ++ ['^', '\n']] ∧
      '^' ∉ under ∧ under.length + shown.length = left.length + utf8Length shown ∧
      (under.length = left.length ↔ ∀ x ∈ shown, x.utf8Size = 1) := by
  intro shown left
  obtain ⟨head, hhead⟩ := lines_render h.lineAt_eq
  -- of the line that is found, only its fields matter
  generalize hline : (⟨before.count '\n' + 1, pre ++ c :: post, utf8Length pre⟩ : Line) = line
    at hhead
  have htext : line.text = pre ++ c :: post := by rw [← hline]
  have hnewline : '\n' ∉ shownLine line.text := htext ▸ newline_not_mem_shownLine h.cut
  obtain ⟨top, hrows⟩ := lines_excerpt hnewline
  obtain ⟨right, hshown⟩ := shownLine_split h.lead h.trail
  -- the dashes are the bytes of the line up to the character, without the indentation
  have hdashes : (caretIndent line).length =
      (toString (before.count '\n' + 1)).toList.length + 3 + utf8Length shown := by
    have hpre : utf8Length pre = utf8Length (pre.takeWhile isIndent) + utf8Length shown := by
      rw [← utf8Length_append, List.takeWhile_append_dropWhile]
    rw [length_caretIndent, htext, takeWhile_isIndent h.lead, ← hline, hpre,
      Nat.add_sub_cancel_left]
  have hleft : left.length =
      (toString (before.count '\n' + 1)).toList.length + 3 + shown.length := by
    simp only [left, List.length_append, List.length_cons, List.length_nil]
  refine ⟨head ++ [top], right ++ ['\n'], caretIndent line, ?_,
    caret_not_mem_caretIndent line, ?_, ?_⟩
  · rw [hhead, hrows, htext, hshown, ← hline]
    simp [left, shown]
  · omega
  · rw [← utf8Length_eq_length_iff]
    omega

namespace Sample

/-- A name that is not declared, behind a string with a letter of two bytes. -/
def accented : String := "var s = \"é\" + y;"

def accentedFront : List Char := "var s = \"é\" + ".toList

def unknownName : Diagnostic := ⟨.undefinedVariable "y" none, ⟨15, "main.sn"⟩⟩

theorem offends_unknownName : Offends unknownName accented [] accentedFront 'y' [';'] [] where
  cut := ⟨by decide +kernel, .inl rfl, .inr ⟨by decide +kernel, rfl⟩⟩
  place := by decide +kernel
  lead := ⟨'y', by simp, by decide⟩
  trail := ⟨'y', by simp, by decide⟩

/-- A string with plain letters only, in an indented line with a number of two digits. -/
def plain : String := "\n\n\n\n\n\n\n\n\n \tvar s = \"e\" + y;\n"

def plainName : Diagnostic := ⟨.undefinedVariable "y" none, ⟨25, "main.sn"⟩⟩

theorem offends_plainName :
    Offends plainName plain (List.replicate 9 '\n') " \tvar s = \"e\" + ".toList 'y'
      [';', '\n'] [] where
  cut := ⟨by decide +kernel, .inr ⟨List.replicate 8 '\n', by decide⟩,
    .inl ⟨" \tvar s = \"e\" + y;".toList, by decide +kernel, by decide +kernel⟩⟩
  place := by decide +kernel
  lead := ⟨'y', by simp, by decide⟩
  trail := ⟨'y', by simp, by decide⟩

end Sample

/-- Behind plain letters, the caret stands below the name. -/
theorem caret_column_plain :
    Offends Sample.plainName Sample.plain (List.replicate 9 '\n') " \tvar s = \"e\" + ".toList 'y'
      [';', '\n'] [] ∧
    let shown := " \tvar s = \"e\" + ".toList.dropWhile isIndent
    let left :=
      (toString ((List.replicate 9 '\n').count '\n' + 1)).toList ++ [' ', '|', ' '] ++ shown
    ∃ head right under,
      lines (Sample.plainName.render Sample.plain).toList =
        head ++ [left ++ 'y' :: right, under ++ ['^', '\n']] ∧
      '^' ∉ under ∧ under.length + shown.length = left.length + utf8Length shown ∧
      (under.length = left.length ↔ ∀ x ∈ shown, x.utf8Size = 1) :=
  ⟨Sample.offends_plainName, caret_column Sample.offends_plainName⟩

/-- The caret stands one column to the right of the name that it is about. -/
theorem caret_beside_name :
    Offends Sample.unknownName Sample.accented [] Sample.accentedFront 'y' [';'] [] ∧
      lines (Sample.unknownName.render Sample.accented).toList =
        ["Error: UndefinedVariable (Undefined variable 'y')\n".toList, "-> main.sn\n".toList,
          "  |\n".toList, "1 | var s = \"é\" + y;\n".toList, "  | ---------------^\n".toList] ∧
      ("1 | var s = \"é\" + y;\n".toList).idxOf 'y' = 18 ∧
      ("  | ---------------^\n".toList).idxOf '^' = 19 :=
  ⟨Sample.offends_unknownName, by decide +kernel, by decide +kernel, by decide +kernel⟩

end ThreadRegions
