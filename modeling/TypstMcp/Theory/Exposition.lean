/-
Theory.Exposition -- samples written one to a line

The text exposition format: a sample is a name, labels between braces, a blank and a
value; a label's value stands between quotes, with the quote, the backslash and the line
feed escaped.  Lines that begin with `#` say something about the samples and are none.

* `readQuoted_escape`: a label value of any characters is read back.
* `read_write`: a text of sound lines is read as its samples, in order, and nothing else.
-/
import Mathlib.Tactic

namespace TypstMcp.Theory.Exposition

set_option autoImplicit false

structure Sample where
  name : List Char
  labels : List (List Char × List Char) := []
  value : List Char
  deriving DecidableEq, Repr

inductive Line
  | comment (text : List Char)
  | sample (sample : Sample)
  deriving DecidableEq, Repr

def Line.sample? : Line → Option Sample
  | .comment _ => none
  | .sample it => some it

/-! ## Writing -/

def escapeChar : Char → List Char
  | '\\' => ['\\', '\\']
  | '"' => ['\\', '"']
  | '\n' => ['\\', 'n']
  | c => [c]

def writeLabel (label : List Char × List Char) : List Char :=
  label.1 ++ '=' :: '"' :: (label.2.flatMap escapeChar ++ ['"'])

def writeLabels : List (List Char × List Char) → List Char
  | [] => []
  | [label] => writeLabel label
  | label :: rest => writeLabel label ++ ',' :: writeLabels rest

def Sample.write (sample : Sample) : List Char :=
  match sample.labels with
  | [] => sample.name ++ ' ' :: sample.value
  | labels => sample.name ++ '\x7b' :: (writeLabels labels ++ '\x7d' :: ' ' :: sample.value)

def Line.write : Line → List Char
  | .comment text => '#' :: text
  | .sample it => it.write

/-- The lines, each with its terminator. -/
def write (lines : List Line) : List Char := lines.flatMap fun line => line.write ++ ['\n']

/-! ## Reading -/

def unescape : Char → Option Char
  | '\\' => some '\\'
  | '"' => some '"'
  | 'n' => some '\n'
  | _ => none

/-- A label's value up to its closing quote, and what follows. -/
def readQuoted : List Char → Option (List Char × List Char)
  | [] => none
  | '"' :: rest => some ([], rest)
  | '\\' :: c :: rest =>
      match unescape c with
      | none => none
      | some d => (readQuoted rest).map fun (value, rest) => (d :: value, rest)
  | c :: rest => (readQuoted rest).map fun (value, rest) => (c :: value, rest)

/-- The labels up to the closing brace, and what follows. -/
def readLabels : Nat → List Char → Option (List (List Char × List Char) × List Char)
  | 0, _ => none
  | fuel + 1, text =>
      match text.dropWhile (· ≠ '=') with
      | '=' :: '"' :: rest =>
          match readQuoted rest with
          | some (value, '\x7d' :: rest) => some ([(text.takeWhile (· ≠ '='), value)], rest)
          | some (value, ',' :: rest) =>
              (readLabels fuel rest).map fun (labels, rest) =>
                ((text.takeWhile (· ≠ '='), value) :: labels, rest)
          | _ => none
      | _ => none

def isNameChar (c : Char) : Bool := c.isAlphanum || c = '_' || c = ':'

def readSample (line : List Char) : Option Sample :=
  match line.dropWhile isNameChar with
  | ' ' :: value => some ⟨line.takeWhile isNameChar, [], value⟩
  | '\x7b' :: rest =>
      match readLabels rest.length rest with
      | some (labels, ' ' :: value) => some ⟨line.takeWhile isNameChar, labels, value⟩
      | _ => none
  | _ => none

/-- The line is empty or about the samples. -/
def isComment : List Char → Bool
  | [] => true
  | c :: _ => c = '#'

/-- The samples of a text whose last line is terminated. -/
def read (text : List Char) : Option (List Sample) :=
  let lines := text.splitOn '\n'
  if lines.getLast? = some [] then (lines.filter (!isComment ·)).mapM readSample else none

/-! ## Round trip -/

theorem readQuoted_escape (value rest : List Char) :
    readQuoted (value.flatMap escapeChar ++ '"' :: rest) = some (value, rest) := by
  induction value with
  | nil => rfl
  | cons c value ih =>
      rw [List.flatMap_cons, List.append_assoc]
      by_cases back : c = '\\'
      · subst back
        simp [escapeChar, readQuoted, unescape, ih]
      by_cases quote : c = '"'
      · subst quote
        simp [escapeChar, readQuoted, unescape, ih]
      by_cases feed : c = '\n'
      · subst feed
        simp [escapeChar, readQuoted, unescape, ih]
      have plain : escapeChar c = [c] := by
        unfold escapeChar
        split <;> simp_all
      rw [plain, List.singleton_append, readQuoted]
      · rw [ih]
        rfl
      · exact fun none_ => quote none_
      · exact fun _ _ none_ => absurd none_ back

/-- The label's name ends where its value begins. -/
def LabelSound (label : List Char × List Char) : Prop := '=' ∉ label.1

theorem takeWhile_free {α : Type} {keep : α → Bool} {front : List α} {c : α} {rest : List α}
    (all : ∀ x ∈ front, keep x = true) (stop : keep c = false) :
    (front ++ c :: rest).takeWhile keep = front ∧
      (front ++ c :: rest).dropWhile keep = c :: rest := by
  induction front with
  | nil => simp [stop]
  | cons x front ih =>
      obtain ⟨here, later⟩ := List.forall_mem_cons.1 all
      simp [here, ih later]

theorem readLabel {label : List Char × List Char} (sound : LabelSound label) (rest : List Char) :
    (writeLabel label ++ rest).takeWhile (· ≠ '=') = label.1 ∧
      (writeLabel label ++ rest).dropWhile (· ≠ '=') =
        '=' :: '"' :: (label.2.flatMap escapeChar ++ '"' :: rest) := by
  have named : ∀ c ∈ label.1, decide (c ≠ '=') = true := by
    intro c inside
    rw [decide_eq_true_eq]
    rintro rfl
    exact sound inside
  have spelled : writeLabel label ++ rest =
      label.1 ++ '=' :: ('"' :: (label.2.flatMap escapeChar ++ '"' :: rest)) := by
    simp [writeLabel]
  rw [spelled]
  exact takeWhile_free named (by decide)

theorem readLabels_write {labels : List (List Char × List Char)} (some_ : labels ≠ [])
    (sound : ∀ label ∈ labels, LabelSound label) (rest : List Char) {fuel : Nat}
    (enough : labels.length ≤ fuel) :
    readLabels fuel (writeLabels labels ++ '\x7d' :: rest) = some (labels, rest) := by
  induction labels generalizing fuel with
  | nil => exact absurd rfl some_
  | cons label more ih =>
      obtain ⟨here, later⟩ := List.forall_mem_cons.1 sound
      obtain ⟨fuel, rfl⟩ : ∃ less, fuel = less + 1 := ⟨fuel - 1, by simp at enough; omega⟩
      cases more with
      | nil =>
          obtain ⟨name, tail⟩ := readLabel here ('\x7d' :: rest)
          rw [writeLabels, readLabels, name, tail]
          simp only [readQuoted_escape]
      | cons next more =>
          obtain ⟨name, tail⟩ := readLabel here (',' :: (writeLabels (next :: more) ++ '\x7d' :: rest))
          have spelled : writeLabels (label :: next :: more) ++ '\x7d' :: rest =
              writeLabel label ++ ',' :: (writeLabels (next :: more) ++ '\x7d' :: rest) := by
            simp [writeLabels]
          rw [spelled, readLabels, name, tail]
          simp only [readQuoted_escape]
          rw [ih (by simp) later (by simpa using enough)]
          rfl

/-- A sample that the format can say. -/
structure SampleSound (sample : Sample) : Prop where
  name : ∀ c ∈ sample.name, isNameChar c = true
  named : sample.name ≠ []
  labels : ∀ label ∈ sample.labels, LabelSound label ∧ '\n' ∉ label.1
  value : '\n' ∉ sample.value

def LineSound : Line → Prop
  | .comment text => '\n' ∉ text
  | .sample sample => SampleSound sample

theorem length_writeLabels (labels : List (List Char × List Char)) :
    labels.length ≤ (writeLabels labels).length := by
  induction labels with
  | nil => simp
  | cons label more ih =>
      cases more with
      | nil => simp [writeLabels, writeLabel]; omega
      | cons next more => simp [writeLabels, writeLabel] at ih ⊢; omega

theorem readSample_write {sample : Sample} (sound : SampleSound sample) :
    readSample sample.write = some sample := by
  obtain ⟨name, labels, value⟩ := sample
  cases labels with
  | nil =>
      obtain ⟨kept, tail⟩ := @takeWhile_free _ isNameChar name ' ' value sound.name (by decide)
      simp only [readSample, Sample.write, kept, tail]
  | cons label more =>
      obtain ⟨kept, tail⟩ := @takeWhile_free _ isNameChar name '\x7b'
        (writeLabels (label :: more) ++ '\x7d' :: ' ' :: value) sound.name (by decide)
      have enough : (label :: more).length ≤
          (writeLabels (label :: more) ++ '\x7d' :: ' ' :: value).length := by
        rw [List.length_append]
        exact (length_writeLabels _).trans (Nat.le_add_right _ _)
      have labelled := readLabels_write (by simp) (fun l inside => (sound.labels l inside).1)
        (' ' :: value) enough
      simp only [readSample, Sample.write, kept, tail, labelled]

theorem escape_no_feed (value : List Char) : '\n' ∉ value.flatMap escapeChar := by
  intro inside
  obtain ⟨c, -, inside⟩ := List.mem_flatMap.1 inside
  unfold escapeChar at inside
  split at inside
  · exact absurd inside (by decide)
  · exact absurd inside (by decide)
  · exact absurd inside (by decide)
  · rename_i other
    exact other (List.mem_singleton.1 inside).symm

theorem writeLabel_no_feed {label : List Char × List Char} (free : '\n' ∉ label.1) :
    '\n' ∉ writeLabel label := by
  have inert := escape_no_feed label.2
  simp only [writeLabel, List.mem_append, List.mem_cons, List.not_mem_nil, not_or]
  exact ⟨free, by decide, by decide, inert, by decide, not_false⟩

theorem writeLabels_no_feed {labels : List (List Char × List Char)}
    (free : ∀ label ∈ labels, '\n' ∉ label.1) : '\n' ∉ writeLabels labels := by
  induction labels with
  | nil => exact List.not_mem_nil
  | cons label more ih =>
      obtain ⟨here, later⟩ := List.forall_mem_cons.1 free
      cases more with
      | nil => exact writeLabel_no_feed here
      | cons next more =>
          simp only [writeLabels, List.mem_append, List.mem_cons, not_or]
          exact ⟨writeLabel_no_feed here, by decide, ih later⟩

theorem write_no_feed {line : Line} (sound : LineSound line) : '\n' ∉ line.write := by
  cases line with
  | comment text =>
      simp only [Line.write, List.mem_cons, not_or]
      exact ⟨by decide, sound⟩
  | sample sample =>
      obtain ⟨name, labels, value⟩ := sample
      have plain : '\n' ∉ name := fun inside =>
        absurd (sound.name _ inside) (by decide)
      cases labels with
      | nil =>
          simp only [Line.write, Sample.write, List.mem_append, List.mem_cons, not_or]
          exact ⟨plain, by decide, sound.value⟩
      | cons label more =>
          simp only [Line.write, Sample.write, List.mem_append, List.mem_cons, not_or]
          exact ⟨plain, by decide,
            writeLabels_no_feed fun l inside => (sound.labels l inside).2, by decide, by decide,
            sound.value⟩

/-- A sample's line is not taken for a comment. -/
theorem isComment_write {line : Line} (sound : LineSound line) :
    isComment line.write = line.sample?.isNone := by
  cases line with
  | comment text => rfl
  | sample sample =>
      obtain ⟨name, labels, value⟩ := sample
      obtain ⟨c, rest, rfl⟩ := List.exists_cons_of_ne_nil sound.named
      have first : isNameChar c = true := sound.name c List.mem_cons_self
      have other : c ≠ '#' := by
        rintro rfl
        exact absurd first (by decide)
      cases labels <;> simpa [Line.write, Sample.write, isComment, Line.sample?] using other

theorem splitOn_write {lines : List Line} (sound : ∀ line ∈ lines, LineSound line) :
    (write lines).splitOn '\n' = lines.map Line.write ++ [[]] := by
  induction lines with
  | nil => rfl
  | cons line rest ih =>
      obtain ⟨here, later⟩ := List.forall_mem_cons.1 sound
      have spelled : write (line :: rest) = line.write ++ '\n' :: write rest := by
        simp [write]
      rw [spelled, List.splitOn_append_cons_self, List.splitOn_eq_singleton (write_no_feed here),
        ih later]
      rfl

/-- **What is written is what is read.** -/
theorem read_write {lines : List Line} (sound : ∀ line ∈ lines, LineSound line) :
    read (write lines) = some (lines.filterMap Line.sample?) := by
  unfold read
  simp only [splitOn_write sound, List.getLast?_concat, if_true]
  rw [List.filter_append]
  have last : [([] : List Char)].filter (!isComment ·) = [] := rfl
  rw [last, List.append_nil]
  induction lines with
  | nil => rfl
  | cons line rest ih =>
      obtain ⟨here, later⟩ := List.forall_mem_cons.1 sound
      have about := isComment_write here
      rw [List.map_cons, List.filter_cons, about]
      cases line with
      | comment text =>
          rw [List.filterMap_cons_none rfl]
          exact ih later
      | sample sample =>
          have mine : readSample (Line.write (.sample sample)) = some sample := readSample_write here
          simp only [Line.sample?, Option.isNone_some, Bool.not_false, if_true, List.mapM_cons, mine,
            List.filterMap_cons]
          rw [ih later]
          rfl

end TypstMcp.Theory.Exposition
