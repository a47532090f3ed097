import Mathlib.Data.List.Basic
import TaggedData.Text.Split

/-!
# The lines of a text

A text is made of lines, each of which is ended by a line feed or by a carriage return and a
line feed. There is one way to see a text like this, and it is the way in which the text is
split into lines.
-/

namespace TaggedData
namespace Text

/-- A text is lines, each ended by a line feed or by a carriage return and a line feed, and
behind them perhaps a line that is not ended. -/
inductive Lines : List Char → List (List Char) → Prop
  | nil : Lines [] []
  | last {line : List Char} (nonempty : line ≠ []) (single : '\n' ∉ line) : Lines line [line]
  | lf {line rest : List Char} {lines : List (List Char)} (single : '\n' ∉ line)
      (noReturn : line.getLast? ≠ some '\r') (more : Lines rest lines) :
      Lines (line ++ '\n' :: rest) (line :: lines)
  | crlf {line rest : List Char} {lines : List (List Char)} (single : '\n' ∉ line)
      (more : Lines rest lines) : Lines (line ++ '\r' :: '\n' :: rest) (line :: lines)

theorem split_of_notMem {separator : Char} {cs : List Char} (h : separator ∉ cs) :
    split separator cs = [cs] := by
  induction cs with
  | nil => rfl
  | cons c rest ih =>
    obtain ⟨hc, hrest⟩ : separator ≠ c ∧ separator ∉ rest := by simpa using h
    simp [split, Ne.symm hc, ih hrest]

theorem split_append {separator : Char} {cs : List Char} (h : separator ∉ cs) (rest : List Char) :
    split separator (cs ++ separator :: rest) = cs :: split separator rest := by
  induction cs with
  | nil => simp [split]
  | cons c cs ih =>
    obtain ⟨hc, hcs⟩ : separator ≠ c ∧ separator ∉ cs := by simpa using h
    simp [split, Ne.symm hc, ih hcs]

theorem lines_of_notMem {line : List Char} (nonempty : line ≠ []) (single : '\n' ∉ line) :
    lines line = [line] := by
  simp only [lines, split_of_notMem single]
  cases line with
  | nil => exact absurd rfl nonempty
  | cons c cs => rfl

theorem lines_append {line : List Char} (single : '\n' ∉ line) (rest : List Char) :
    lines (line ++ '\n' :: rest) = withoutReturn line :: lines rest := by
  obtain ⟨piece, pieces, hpieces⟩ := List.exists_cons_of_ne_nil (split_ne_nil '\n' rest)
  simp only [lines, split_append single, hpieces, List.dropLast_cons_cons, List.map_cons,
    List.getLast?_cons_cons]
  split <;> rfl

theorem withoutReturn_of_ne {line : List Char} (h : line.getLast? ≠ some '\r') :
    withoutReturn line = line := by
  unfold withoutReturn
  split
  · rename_i hlast
    exact absurd hlast h
  · rfl

theorem withoutReturn_append (line : List Char) : withoutReturn (line ++ ['\r']) = line := by
  simp [withoutReturn]

theorem lines_eq_of_lines {cs : List Char} {ls : List (List Char)} (h : Lines cs ls) :
    lines cs = ls := by
  induction h with
  | nil => rfl
  | last nonempty single => exact lines_of_notMem nonempty single
  | lf single noReturn _ ih => rw [lines_append single, withoutReturn_of_ne noReturn, ih]
  | @crlf line rest _ single _ ih =>
    have hline : '\n' ∉ line ++ ['\r'] := by simpa using single
    have hsplit : line ++ '\r' :: '\n' :: rest = (line ++ ['\r']) ++ '\n' :: rest := by simp
    rw [hsplit, lines_append hline, withoutReturn_append, ih]

/-- Every text is lines in one way. -/
theorem lines_lines (cs : List Char) : Lines cs (lines cs) := by
  by_cases hmem : '\n' ∈ cs
  · obtain ⟨line, rest, rfl, hline⟩ := List.eq_append_cons_of_mem hmem
    have hrest := lines_lines rest
    rw [lines_append hline]
    by_cases hreturn : line.getLast? = some '\r'
    · obtain ⟨before, rfl⟩ := List.getLast?_eq_some_iff.mp hreturn
      rw [withoutReturn_append, List.append_assoc]
      refine .crlf ?_ hrest
      simpa using hline
    · rw [withoutReturn_of_ne hreturn]
      exact .lf hline hreturn hrest
  · cases cs with
    | nil => exact .nil
    | cons c cs =>
      rw [lines_of_notMem (List.cons_ne_nil _ _) hmem]
      exact .last (List.cons_ne_nil _ _) hmem
termination_by cs.length
decreasing_by simp_all; omega

theorem lines_eq_iff {cs : List Char} {ls : List (List Char)} : lines cs = ls ↔ Lines cs ls :=
  ⟨fun h => h ▸ lines_lines cs, lines_eq_of_lines⟩

end Text
end TaggedData
