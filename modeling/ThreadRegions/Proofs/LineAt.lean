import ThreadRegions.Proofs.Tiling
import ThreadRegions.Text.Line

/-!
# The line of a byte offset

A text is cut into lines at its newlines.  Here the line that holds a byte offset is described
twice: on the characters of the text, where it is a piece between two newlines, and on the bytes of
the text in UTF-8, which is what the offset counts.

## Main Definitions

* `CutsLine`: a line of a text, with what stands before and after it
* `utf8Bytes`: the bytes of a text
* `BeginsLine`, `EndsLine`: where the line of a byte begins and ends
* `Line.IsAt`: what the number, the text and the column of a line say about the bytes

## Main Results

* `lineAt_of_cutsLine`: a byte of a line is found in that line
* `exists_cutsLine`: every byte of a text is in one of its lines
* `lineAt_describes`: a line is found for every byte of a text and for no other offset, and it is
  the line that the bytes say

## Design Notes

An offset may point into the middle of a character.  So the description on bytes speaks of newline
bytes, and the bridge to characters is that no character but the newline has such a byte
(`newlineByte_mem_encode`).
-/

namespace ThreadRegions

/-! ### Lines as characters -/

/-- `text` is a line of `cs`, between `before` and `after`. -/
structure CutsLine (cs before text after : List Char) : Prop where
  split : cs = before ++ (text ++ after)
  begins : before = [] ∨ ∃ front, before = front ++ ['\n']
  ends : (∃ body, text = body ++ ['\n'] ∧ '\n' ∉ body) ∨ '\n' ∉ text ∧ after = []

/-- A text that is not empty has a line. -/
theorem lines_ne_nil {cs : List Char} (h : cs ≠ []) : lines cs ≠ [] := by
  intro hnil
  have hflat := flatten_lines cs
  rw [hnil] at hflat
  exact h hflat.symm

/-- What stands up to a newline has lines of its own. -/
theorem lines_append_newline (front rest : List Char) :
    lines (front ++ '\n' :: rest) = lines (front ++ ['\n']) ++ lines rest := by
  induction front with
  | nil => simp [lines]
  | cons c front ih =>
    simp only [List.cons_append, lines]
    split
    · rw [ih, List.cons_append]
    · rw [ih]
      cases hfront : lines (front ++ ['\n']) with
      | nil => exact absurd hfront (lines_ne_nil (by simp))
      | cons first others => rfl

/-- A newline at the end makes one line. -/
theorem lines_body_newline {body : List Char} (hbody : '\n' ∉ body) :
    lines (body ++ ['\n']) = [body ++ ['\n']] := by
  induction body with
  | nil => rfl
  | cons c body ih =>
    rw [List.mem_cons, not_or] at hbody
    rw [List.cons_append, lines, if_neg (Ne.symm hbody.1), ih hbody.2]

theorem lines_body {body : List Char} (hne : body ≠ []) (hbody : '\n' ∉ body) :
    lines body = [body] := by
  induction body with
  | nil => exact absurd rfl hne
  | cons c body ih =>
    rw [List.mem_cons, not_or] at hbody
    rw [lines, if_neg (Ne.symm hbody.1)]
    by_cases hnil : body = []
    · rw [hnil]
      rfl
    · rw [ih hnil hbody.2]

/-- A text that ends in a newline has as many lines as newlines. -/
theorem length_lines_newline (front : List Char) :
    (lines (front ++ ['\n'])).length = front.count '\n' + 1 := by
  induction front with
  | nil => rfl
  | cons c front ih =>
    rw [List.cons_append, lines]
    split
    · next hc => rw [hc, List.length_cons, ih, List.count_cons_self]
    · next hc =>
      rw [List.count_cons_of_ne hc, ← ih]
      cases hfront : lines (front ++ ['\n']) with
      | nil => exact absurd hfront (lines_ne_nil (by simp))
      | cons first others => rfl

/-- The search goes past whole lines. -/
theorem lineAmong_append (front rest : List (List Char)) (number k : Nat) :
    lineAmong number (utf8Length front.flatten + k) (front ++ rest) =
      lineAmong (number + front.length) k rest := by
  induction front generalizing number with
  | nil => simp
  | cons text front ih =>
    have hlong : ¬ utf8Length text + utf8Length front.flatten + k < utf8Length text := by omega
    rw [List.flatten_cons, utf8Length_append, List.cons_append, lineAmong, if_neg hlong,
      Nat.add_assoc, Nat.add_sub_cancel_left, ih, List.length_cons]
    congr 1
    omega

/-- Only a byte of the given lines is found in them. -/
theorem lt_of_lineAmong {front : List (List Char)} {number offset : Nat} {line : Line}
    (h : lineAmong number offset front = some line) : offset < utf8Length front.flatten := by
  induction front generalizing number offset with
  | nil => cases h
  | cons text front ih =>
    rw [List.flatten_cons, utf8Length_append]
    rw [lineAmong] at h
    split at h
    · omega
    · have hlt := ih h
      omega

namespace CutsLine

variable {cs before text after : List Char}

/-- The lines of a text are those before a given one, that one, and those after it. -/
theorem lines_eq (h : CutsLine cs before text after) (hne : text ≠ []) :
    ∃ front, lines cs = front ++ text :: lines after ∧ front.flatten = before ∧
      front.length = before.count '\n' := by
  have hrest : lines (text ++ after) = text :: lines after := by
    rcases h.ends with ⟨body, rfl, hbody⟩ | ⟨hbody, rfl⟩
    · rw [List.append_assoc, List.singleton_append, lines_append_newline, lines_body_newline hbody,
        List.singleton_append]
    · rw [List.append_nil, lines_body hne hbody, lines]
  rcases h.begins with rfl | ⟨front, rfl⟩
  · exact ⟨[], by rw [h.split, List.nil_append, hrest, List.nil_append], rfl, rfl⟩
  · refine ⟨lines (front ++ ['\n']), ?_, flatten_lines _, ?_⟩
    · rw [h.split, List.append_assoc, List.singleton_append, lines_append_newline, hrest]
    · rw [length_lines_newline, List.count_append, List.count_singleton_self]

end CutsLine

/-- A byte of a line is found in that line. -/
theorem lineAt_of_cutsLine {cs before text after : List Char} (h : CutsLine cs before text after)
    {k : Nat} (hk : k < utf8Length text) :
    lineAt cs (utf8Length before + k) = some ⟨before.count '\n' + 1, text, k⟩ := by
  have hne : text ≠ [] := by
    rintro rfl
    exact Nat.not_lt_zero k hk
  obtain ⟨front, hlines, hflat, hlength⟩ := h.lines_eq hne
  rw [lineAt, hlines, ← hflat, lineAmong_append, lineAmong, if_pos hk, hlength, hflat, Nat.add_comm]

/-- Every byte of a text is in one of its lines. -/
theorem exists_cutsLine {cs : List Char} {pos : Nat} (h : pos < utf8Length cs) :
    ∃ before text after k, CutsLine cs before text after ∧ k < utf8Length text ∧
      pos = utf8Length before + k := by
  by_cases hmem : '\n' ∈ cs
  · -- the first line goes up to the first newline, and a later byte is a byte of the rest
    obtain ⟨body, rest, hcs, hbody⟩ := List.eq_append_cons_of_mem hmem
    by_cases hfirst : pos < utf8Length (body ++ ['\n'])
    · refine ⟨[], body ++ ['\n'], rest, pos, ⟨?_, .inl rfl, .inl ⟨body, rfl, hbody⟩⟩, hfirst, ?_⟩
      · rw [hcs, List.nil_append, List.append_assoc, List.singleton_append]
      · rw [utf8Length_nil, Nat.zero_add]
    · have hcs : cs = (body ++ ['\n']) ++ rest := by
        rw [hcs, List.append_assoc, List.singleton_append]
      have hshort : rest.length < cs.length := by
        rw [hcs, List.length_append, List.length_append, List.length_singleton]
        omega
      have hpos : pos - utf8Length (body ++ ['\n']) < utf8Length rest := by
        rw [hcs, utf8Length_append] at h
        omega
      -- the rest is shorter, and its first line begins after a newline
      obtain ⟨before, text, after, k, hcut, hk, hoff⟩ := exists_cutsLine hpos
      refine ⟨(body ++ ['\n']) ++ before, text, after, k, ⟨?_, .inr ?_, hcut.ends⟩, hk, ?_⟩
      · rw [hcs, hcut.split, List.append_assoc _ before]
      · rcases hcut.begins with rfl | ⟨front, rfl⟩
        · exact ⟨body, List.append_nil _⟩
        · exact ⟨body ++ ['\n'] ++ front, (List.append_assoc ..).symm⟩
      · rw [utf8Length_append]
        omega
  · exact ⟨[], cs, [], pos, ⟨(List.append_nil cs).symm, .inl rfl, .inr ⟨hmem, rfl⟩⟩, h,
      (Nat.zero_add pos).symm⟩
termination_by cs.length

/-! ### Lines as bytes -/

/-- The bytes of a text in UTF-8. -/
def utf8Bytes (source : String) : List UInt8 := source.toByteArray.data.toList

/-- The byte of a newline. -/
def newlineByte : UInt8 := 10

/-- The bytes of a text are those of its characters. -/
theorem utf8Bytes_eq_flatMap (source : String) :
    utf8Bytes source = source.toList.flatMap String.utf8EncodeChar := by
  rw [utf8Bytes, ← String.utf8Encode_toList, List.utf8Encode, List.toList_data_toByteArray]

theorem utf8Bytes_ofList (cs : List Char) :
    utf8Bytes (String.ofList cs) = cs.flatMap String.utf8EncodeChar := by
  rw [utf8Bytes_eq_flatMap, String.toList_ofList]

theorem length_utf8Bytes (source : String) : (utf8Bytes source).length = source.utf8ByteSize := by
  rw [utf8Bytes, Array.length_toList]
  rfl

/-- The offset of a byte counts the bytes of the characters before it. -/
theorem length_encode (cs : List Char) :
    (cs.flatMap String.utf8EncodeChar).length = utf8Length cs := by
  rw [← utf8Bytes_ofList, length_utf8Bytes, ← utf8Length_toList, String.toList_ofList]

theorem newlineByte_eq_ofNat_iff {n : Nat} : newlineByte = UInt8.ofNat n ↔ n % 256 = 10 := by
  rw [← UInt8.toNat_inj, UInt8.toNat_ofNat']
  exact eq_comm

/-- The bytes of a character that takes more than one are all above those of ASCII. -/
theorem newlineByte_mem_encode {c : Char} : newlineByte ∈ String.utf8EncodeChar c ↔ c = '\n' := by
  have hc : c = '\n' ↔ c.val.toNat = 10 := by
    rw [Char.ext_iff, ← UInt32.toNat_inj]
    rfl
  rw [hc]
  unfold String.utf8EncodeChar
  dsimp only
  split
  · rw [List.mem_singleton, newlineByte_eq_ofNat_iff]
    omega
  · split
    · simp only [List.mem_cons, List.not_mem_nil, newlineByte_eq_ofNat_iff, or_false]
      omega
    · split
      · simp only [List.mem_cons, List.not_mem_nil, newlineByte_eq_ofNat_iff, or_false]
        omega
      · simp only [List.mem_cons, List.not_mem_nil, newlineByte_eq_ofNat_iff, or_false]
        omega

/-- There is a newline among the bytes if there is one among the characters. -/
theorem newlineByte_mem_flatMap {cs : List Char} :
    newlineByte ∈ cs.flatMap String.utf8EncodeChar ↔ '\n' ∈ cs := by
  rw [List.mem_flatMap]
  constructor
  · rintro ⟨c, hc, hbyte⟩
    rwa [← newlineByte_mem_encode.1 hbyte]
  · intro hmem
    exact ⟨'\n', hmem, newlineByte_mem_encode.2 rfl⟩

theorem encode_newline : String.utf8EncodeChar '\n' = [newlineByte] := by decide

/-- There are as many newlines among the bytes as among the characters. -/
theorem count_newlineByte (cs : List Char) :
    (cs.flatMap String.utf8EncodeChar).count newlineByte = cs.count '\n' := by
  induction cs with
  | nil => rfl
  | cons c cs ih =>
    rw [List.flatMap_cons, List.count_append, ih]
    by_cases hc : c = '\n'
    · rw [hc, encode_newline, List.count_singleton_self, List.count_cons_self, Nat.add_comm]
    · rw [List.count_eq_zero.2 (mt newlineByte_mem_encode.1 hc), List.count_cons_of_ne hc,
        Nat.zero_add]

/-- The line of byte `pos` begins at byte `start`: after the last newline before `pos`, or at the
beginning of the text. -/
structure BeginsLine (bytes : List UInt8) (pos start : Nat) : Prop where
  le : start ≤ pos
  after : start = 0 ∨ bytes[start - 1]? = some newlineByte
  last : ∀ i, start ≤ i → i < pos → bytes[i]? ≠ some newlineByte

/-- The line of byte `pos` ends before byte `stop`: after the next newline from `pos` on, or at the
end of the text. -/
structure EndsLine (bytes : List UInt8) (pos stop : Nat) : Prop where
  lt : pos < stop
  le : stop ≤ bytes.length
  after : bytes[stop - 1]? = some newlineByte ∨ stop = bytes.length
  next : ∀ i, pos ≤ i → i + 1 < stop → bytes[i]? ≠ some newlineByte

/-- A line begins at one place only. -/
theorem BeginsLine.unique {bytes : List UInt8} {pos a b : Nat} (ha : BeginsLine bytes pos a)
    (hb : BeginsLine bytes pos b) : a = b := by
  rcases Nat.lt_trichotomy a b with hlt | heq | hlt
  · rcases hb.after with h0 | hnewline
    · omega
    · exact absurd hnewline (ha.last _ (by omega) (by have := hb.le; omega))
  · exact heq
  · rcases ha.after with h0 | hnewline
    · omega
    · exact absurd hnewline (hb.last _ (by omega) (by have := ha.le; omega))

/-- A line ends at one place only. -/
theorem EndsLine.unique {bytes : List UInt8} {pos a b : Nat} (ha : EndsLine bytes pos a)
    (hb : EndsLine bytes pos b) : a = b := by
  have hpa := ha.lt
  have hpb := hb.lt
  rcases Nat.lt_trichotomy a b with hlt | heq | hlt
  · rcases ha.after with hnewline | hend
    · exact absurd hnewline (hb.next _ (by omega) (by omega))
    · have := hb.le
      omega
  · exact heq
  · rcases hb.after with hnewline | hend
    · exact absurd hnewline (ha.next _ (by omega) (by omega))
    · have := ha.le
      omega

/-- The line is that of byte `pos` of a text with the given bytes, and the column is that of the
byte in it. -/
def Line.IsAt (line : Line) (bytes : List UInt8) (pos : Nat) : Prop :=
  ∃ start stop, BeginsLine bytes pos start ∧ EndsLine bytes pos stop ∧
    line.number = (bytes.take pos).count newlineByte + 1 ∧ line.column = pos - start ∧
    utf8Bytes (String.ofList line.text) = (bytes.take stop).drop start

/-- There is only one such line. -/
theorem Line.IsAt.unique {line line' : Line} {bytes : List UInt8} {pos : Nat}
    (h : line.IsAt bytes pos) (h' : line'.IsAt bytes pos) : line = line' := by
  obtain ⟨start, stop, hstart, hstop, hnumber, hcolumn, htext⟩ := h
  obtain ⟨start', stop', hstart', hstop', hnumber', hcolumn', htext'⟩ := h'
  obtain rfl := hstart.unique hstart'
  obtain rfl := hstop.unique hstop'
  have hbytes : utf8Bytes (String.ofList line.text) = utf8Bytes (String.ofList line'.text) :=
    htext.trans htext'.symm
  have hsame : line.text = line'.text := by
    rw [← String.ofList_inj, ← String.toByteArray_inj]
    exact ByteArray.ext (Array.toList_inj.1 hbytes)
  obtain ⟨number, text, column⟩ := line
  obtain ⟨number', text', column'⟩ := line'
  simp only at hnumber hnumber' hcolumn hcolumn' hsame
  rw [hnumber, hnumber', hcolumn, hcolumn', hsame]

namespace CutsLine

variable {cs before text after : List Char}

/-- The bytes of a text, around a line. -/
theorem bytes_eq (h : CutsLine cs before text after) :
    cs.flatMap String.utf8EncodeChar = before.flatMap String.utf8EncodeChar ++
      (text.flatMap String.utf8EncodeChar ++ after.flatMap String.utf8EncodeChar) := by
  rw [h.split, List.flatMap_append, List.flatMap_append]

/-- A line has no newline before its last byte. -/
theorem newlineByte_not_mem_take (h : CutsLine cs before text after) {n : Nat}
    (hn : n < utf8Length text) :
    newlineByte ∉ (text.flatMap String.utf8EncodeChar).take n := by
  rcases h.ends with ⟨body, rfl, hbody⟩ | ⟨hbody, -⟩
  · have hle : n ≤ utf8Length body := by
      rw [utf8Length_append] at hn
      exact Nat.le_of_lt_succ hn
    rw [List.flatMap_append, List.take_append_of_le_length (by rwa [length_encode])]
    exact fun hmem => hbody (newlineByte_mem_flatMap.1 (List.mem_of_mem_take hmem))
  · exact fun hmem => hbody (newlineByte_mem_flatMap.1 (List.mem_of_mem_take hmem))

/-- No byte of a line but the last one is a newline. -/
theorem getElem?_ne_newline (h : CutsLine cs before text after) {i : Nat}
    (hi : utf8Length before ≤ i) (hlt : i + 1 < utf8Length before + utf8Length text) :
    (cs.flatMap String.utf8EncodeChar)[i]? ≠ some newlineByte := by
  obtain ⟨j, rfl⟩ := Nat.exists_eq_add_of_le hi
  have hj : j + 1 < utf8Length text := by omega
  intro hbyte
  refine h.newlineByte_not_mem_take hj ?_
  rw [h.bytes_eq, List.getElem?_append_right (by rw [length_encode]; omega), length_encode,
    Nat.add_sub_cancel_left, List.getElem?_append_left (by rw [length_encode]; omega)] at hbyte
  exact List.mem_of_getElem? ((List.getElem?_take_of_lt (Nat.lt_succ_self j)).trans hbyte)

/-- Before a line there is nothing, or a newline. -/
theorem beginsLine (h : CutsLine cs before text after) {k : Nat} (hk : k < utf8Length text) :
    BeginsLine (cs.flatMap String.utf8EncodeChar) (utf8Length before + k) (utf8Length before) where
  le := Nat.le_add_right _ _
  after := by
    rcases h.begins with rfl | ⟨front, rfl⟩
    · exact .inl rfl
    · right
      -- the byte before the line is that of the newline
      have hlast : utf8Length (front ++ ['\n']) - 1 = utf8Length front := by
        rw [utf8Length_append]
        rfl
      rw [hlast, h.bytes_eq, List.flatMap_append, List.flatMap_singleton, encode_newline,
        List.append_assoc, List.getElem?_append_right (by rw [length_encode]), length_encode,
        Nat.sub_self]
      rfl
  last i hi hlt := h.getElem?_ne_newline hi (by omega)

/-- A line ends with a newline, or with the text. -/
theorem endsLine (h : CutsLine cs before text after) {k : Nat} (hk : k < utf8Length text) :
    EndsLine (cs.flatMap String.utf8EncodeChar) (utf8Length before + k)
      (utf8Length before + utf8Length text) where
  lt := Nat.add_lt_add_left hk _
  le := by
    rw [length_encode, h.split, utf8Length_append, utf8Length_append]
    omega
  after := by
    rcases h.ends with ⟨body, rfl, -⟩ | ⟨-, rfl⟩
    · left
      -- the last byte of the line is that of the newline
      have hlast : utf8Length before + utf8Length (body ++ ['\n']) - 1 =
          utf8Length (before ++ body) := by
        rw [utf8Length_append, utf8Length_append]
        rfl
      rw [hlast, h.bytes_eq, List.flatMap_append, List.flatMap_singleton, encode_newline,
        List.append_assoc, ← List.append_assoc, ← List.flatMap_append,
        List.getElem?_append_right (by rw [length_encode]), length_encode, Nat.sub_self]
      rfl
    · right
      rw [length_encode, h.split, List.append_nil, utf8Length_append]
  next i hi hlt := h.getElem?_ne_newline (by omega) hlt

/-- The number, the text and the column of a byte of a line, read off the bytes. -/
theorem isAt (h : CutsLine cs before text after) {k : Nat} (hk : k < utf8Length text) :
    Line.IsAt ⟨before.count '\n' + 1, text, k⟩ (cs.flatMap String.utf8EncodeChar)
      (utf8Length before + k) := by
  refine ⟨utf8Length before, utf8Length before + utf8Length text, h.beginsLine hk, h.endsLine hk,
    ?_, (Nat.add_sub_cancel_left ..).symm, ?_⟩
  · rw [h.bytes_eq, ← length_encode before, List.take_length_add_append, List.count_append,
      count_newlineByte, List.take_append_of_le_length (by rw [length_encode]; omega),
      List.count_eq_zero.2 (h.newlineByte_not_mem_take hk)]
  · rw [utf8Bytes_ofList, h.bytes_eq, ← length_encode before, ← length_encode text,
      List.take_length_add_append, List.drop_left, List.take_left]

end CutsLine

/-- A line is found for every byte of a source and for no other offset.  What is found is the line
from after the last newline before the byte to the next newline, with one more than the number of
newlines before the byte and the distance of the byte from the beginning of the line. -/
theorem lineAt_describes (source : String) (pos : Nat) :
    ((lineAt source.toList pos).isSome ↔ pos < source.utf8ByteSize) ∧
      ∀ line, lineAt source.toList pos = some line ↔ line.IsAt (utf8Bytes source) pos := by
  have hfound (hpos : pos < source.utf8ByteSize) :
      ∃ line, lineAt source.toList pos = some line ∧ line.IsAt (utf8Bytes source) pos := by
    rw [← utf8Length_toList] at hpos
    obtain ⟨before, text, after, k, hcut, hk, rfl⟩ := exists_cutsLine hpos
    exact ⟨_, lineAt_of_cutsLine hcut hk, utf8Bytes_eq_flatMap source ▸ hcut.isAt hk⟩
  have hlt {line : Line} (h : lineAt source.toList pos = some line) :
      pos < source.utf8ByteSize := by
    have hoff := lt_of_lineAmong h
    rwa [flatten_lines, utf8Length_toList] at hoff
  refine ⟨⟨fun h => ?_, fun hpos => ?_⟩, fun line => ⟨fun h => ?_, fun h => ?_⟩⟩
  · obtain ⟨line, hline⟩ := Option.isSome_iff_exists.1 h
    exact hlt hline
  · obtain ⟨line, hline, -⟩ := hfound hpos
    rw [hline, Option.isSome_some]
  · obtain ⟨line', hline', hat⟩ := hfound (hlt h)
    rwa [← Option.some.inj (hline'.symm.trans h)]
  -- the byte is one of the text, so a line is found, and there is only one
  · obtain ⟨start, stop, hstart, hstop, -⟩ := id h
    have hpos : pos < source.utf8ByteSize := by
      rw [← length_utf8Bytes]
      exact Nat.lt_of_lt_of_le hstop.lt hstop.le
    obtain ⟨line', hline', hat⟩ := hfound hpos
    rw [hline', hat.unique h]

-- the second byte of the first character, and the empty line
example : lineAt "é\n\nab".toList 1 = some ⟨1, ['é', '\n'], 1⟩ ∧
    lineAt "é\n\nab".toList 3 = some ⟨2, ['\n'], 0⟩ := by decide

end ThreadRegions
