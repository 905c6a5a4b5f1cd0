import Mathlib
import GraphStore.Disk.Replacement
import GraphStore.Identifier
import GraphStore.Settings
import GraphStore.Transaction.Workspace

/-!
# Lengths of paths

A path may be asked for if it is short enough and holds no NUL.  If a path has room for some bytes,
then the entries with names of at most so many bytes below it may be asked for, and so may the
temporary entries beside them.
-/

namespace GraphStore

theorem utf8ByteSize_eq_sum (text : String) :
    text.utf8ByteSize = (text.toList.map Char.utf8Size).sum := by
  suffices general : ∀ chars : List Char,
      (String.ofList chars).utf8ByteSize = (chars.map Char.utf8Size).sum by
    simpa using general text.toList
  intro chars
  induction chars with
  | nil => rfl
  | cons c rest ih =>
      rw [String.ofList_cons, String.utf8ByteSize_append, String.utf8ByteSize_singleton, ih,
        List.map_cons, List.sum_cons]

theorem utf8ByteSize_le_of_initial {short long : String} (isPrefix : short.toList <+: long.toList) :
    short.utf8ByteSize ≤ long.utf8ByteSize := by
  obtain ⟨rest, whole⟩ := isPrefix
  rw [utf8ByteSize_eq_sum, utf8ByteSize_eq_sum, ← whole, List.map_append, List.sum_append]
  exact Nat.le_add_right _ _

namespace Text

theorem splitAt_ne_nil (separator : Char) (text : List Char) : splitAt separator text ≠ [] := by
  cases text with
  | nil => simp [splitAt]
  | cons c rest =>
      rw [splitAt]
      split
      · simp
      · split <;> simp

theorem joinWith_cons (separator text : String) {rest : List String} (more : rest ≠ []) :
    joinWith separator (text :: rest) = text ++ separator ++ joinWith separator rest := by
  cases rest with
  | nil => exact absurd rfl more
  | cons next others => rfl

/-- The parts of a text, put together again. -/
theorem joinWith_splitAt (separator : Char) (text : List Char) :
    (joinWith (String.ofList [separator]) ((splitAt separator text).map String.ofList)).toList =
      text := by
  induction text with
  | nil => rfl
  | cons c rest ih =>
      have some := splitAt_ne_nil separator rest
      rw [splitAt]
      split
      · next same =>
          rw [List.map_cons, joinWith_cons _ _ (by simpa using some)]
          rw [String.toList_append, String.toList_append, ih, same]
          simp
      · cases parts : splitAt separator rest with
        | nil => exact absurd parts some
        | cons first others =>
            rw [parts] at ih
            cases others with
            | nil =>
                simp only [List.map_cons, List.map_nil, joinWith, String.toList_ofList] at ih ⊢
                rw [ih]
            | cons next others =>
                rw [List.map_cons, joinWith_cons _ _ (by simp)] at ih
                simp only [List.map_cons]
                rw [joinWith_cons _ _ (by simp)]
                simp only [String.toList_append, String.toList_ofList, List.map_cons,
                  List.cons_append] at ih ⊢
                rw [ih]

/-- The first parts, put together, are the beginning of all parts, put together. -/
theorem joinWith_prefix_joinWith (separator : String) {some all : List String} (isPrefix : some <+: all) :
    (joinWith separator some).toList <+: (joinWith separator all).toList := by
  induction some generalizing all with
  | nil => exact List.nil_prefix
  | cons text rest ih =>
      cases all with
      | nil => exact absurd isPrefix (by simp)
      | cons first others =>
          obtain ⟨rfl, below⟩ := List.cons_prefix_cons.1 isPrefix
          cases rest with
          | nil =>
              cases others with
              | nil => exact List.prefix_refl _
              | cons next others =>
                  simp only [joinWith, String.toList_append, List.append_assoc]
                  exact List.prefix_append _ _
          | cons next rest =>
              have more : others ≠ [] := by
                rintro rfl
                simp at below
              rw [joinWith_cons _ _ (List.cons_ne_nil next rest), joinWith_cons _ _ more]
              simp only [String.toList_append, List.append_assoc, List.prefix_append_right_inj]
              exact ih below

end Text

namespace Path

theorem trimText_prefix_text (text : String) : (trimText text).toList <+: text.toList := by
  unfold trimText
  simp only
  split
  · rw [String.toList_ofList]
    exact List.take_prefix 1 text.toList
  · have whole : (Text.joinWith "/"
        ((Text.splitAt '/' text.toList).map String.ofList)).toList = text.toList :=
      Text.joinWith_splitAt '/' text.toList
    have isStart := Text.joinWith_prefix_joinWith "/" (List.reverse_prefix.2
      (List.dropWhile_suffix (fun part : String => decide (part = "" ∨ part = "."))
        (l := ((Text.splitAt '/' text.toList).map String.ofList).reverse)))
    rw [List.reverse_reverse, whole] at isStart
    exact isStart

/-- Whether a path that is longer by some bytes may still be asked for. -/
def Fits (path : Path) (extra : Nat) : Prop :=
  path.text.utf8ByteSize + extra ≤ lengthLimit ∧ '\x00' ∉ path.text.toList

variable {path : Path} {extra : Nat}

theorem isUsable_iff_fits : path.isUsable ↔ path.Fits 0 := by
  simp [isUsable, Fits]

theorem Fits.mono (fits : path.Fits extra) {less : Nat} (small : less ≤ extra) :
    path.Fits less :=
  ⟨Nat.le_trans (Nat.add_le_add_left small _) fits.1, fits.2⟩

theorem Fits.isUsable (fits : path.Fits extra) : path.isUsable :=
  isUsable_iff_fits.2 (fits.mono (Nat.zero_le extra))

theorem Fits.trimmed (fits : path.Fits extra) : path.trimmed.Fits extra := by
  have isPrefix := trimText_prefix_text path.text
  refine ⟨Nat.le_trans (Nat.add_le_add_right (utf8ByteSize_le_of_initial isPrefix) _) fits.1, ?_⟩
  exact fun member => fits.2 (isPrefix.subset member)

theorem Fits.child {name : String} (fits : path.Fits (name.utf8ByteSize + 1 + extra))
    (clean : '\x00' ∉ name.toList) : (path.child name).Fits extra := by
  obtain ⟨short, cleanPath⟩ := fits
  have slash : "/".utf8ByteSize = 1 := by decide
  simp only [Fits, Path.child, joinText]
  split
  · constructor
    · rw [String.utf8ByteSize_append]
      omega
    · simp [cleanPath, clean]
  · constructor
    · rw [String.utf8ByteSize_append, String.utf8ByteSize_append]
      omega
    · simp [cleanPath, clean]

theorem utf8ByteSize_le_child (path : Path) (name : String) :
    path.text.utf8ByteSize + name.utf8ByteSize ≤ (path.child name).text.utf8ByteSize := by
  simp only [Path.child, joinText]
  split
  · exact Nat.le_of_eq String.utf8ByteSize_append.symm
  · rw [String.utf8ByteSize_append, String.utf8ByteSize_append]
    omega

theorem not_isUsable_child {name : String} (unclean : '\x00' ∈ name.toList) :
    (path.child name).isUsable = false := by
  have member : '\x00' ∈ (path.child name).text.toList := by
    simp only [Path.child, joinText]
    split <;> simp [unclean]
  simp [isUsable, member]

end Path

/-! ## Temporary names -/

theorem Identifier.utf8Size_of_mem_hexDigits {width number : Nat} {c : Char}
    (member : c ∈ Text.hexDigits width number) : c.utf8Size = 1 ∧ c ≠ '\x00' ∧ c ≠ '/' := by
  induction width generalizing number with
  | zero => simp [Text.hexDigits] at member
  | succ width ih =>
      rw [Text.hexDigits] at member
      rcases List.mem_append.1 member with member | member
      · exact ih member
      · rw [List.mem_singleton.1 member]
        have digits : ∀ digit : Fin 16, (Text.hexDigit digit).utf8Size = 1 ∧
            Text.hexDigit digit ≠ '\x00' ∧ Text.hexDigit digit ≠ '/' := by decide
        exact digits ⟨number % 16, Nat.mod_lt number (by decide)⟩

theorem Identifier.length_hexDigits (width number : Nat) :
    (Text.hexDigits width number).length = width := by
  induction width generalizing number with
  | zero => rfl
  | succ width ih => rw [Text.hexDigits, List.length_append, ih, List.length_singleton]

@[simp]
theorem Identifier.utf8ByteSize_token (number : Nat) :
    (token number).utf8ByteSize = Replacement.tokenLength := by
  rw [utf8ByteSize_eq_sum, token, String.toList_ofList]
  have each : (Text.hexDigits 32 number).map Char.utf8Size = List.replicate 32 1 := by
    refine List.eq_replicate_iff.2 ⟨?_, fun size member => ?_⟩
    · rw [List.length_map, length_hexDigits]
    · obtain ⟨c, inDigits, rfl⟩ := List.mem_map.1 member
      exact (utf8Size_of_mem_hexDigits inDigits).1
  rw [each]
  decide

namespace Replacement

/-- How many bytes longer a temporary name is. -/
def temporaryExtra : Nat := 38

theorem utf8ByteSize_temporaryName (name : String) {token : String}
    (length : token.utf8ByteSize = tokenLength) :
    (temporaryName name token).utf8ByteSize = name.utf8ByteSize + temporaryExtra := by
  have dot : ".".utf8ByteSize = 1 := by decide
  have suffix : ".tmp".utf8ByteSize = 4 := by decide
  simp only [temporaryName, String.utf8ByteSize_append, length, dot, suffix, tokenLength,
    temporaryExtra]
  omega

theorem not_mem_temporaryName {c : Char} {name token : String} (inName : c ∉ name.toList)
    (inToken : c ∉ token.toList) (around : c ∉ ".tmp".toList) :
    c ∉ (temporaryName name token).toList := by
  have dot : c ∉ ".".toList := fun member => around (List.mem_append_left _ member)
  simp only [temporaryName, String.toList_append, List.mem_append]
  rintro ((((member | member) | member) | member) | member)
  · exact dot member
  · exact inName member
  · exact dot member
  · exact inToken member
  · exact around member

/-- A directory with room for a temporary name has temporary paths beside its entries. -/
theorem hasTemporary_of_fits {directory : Path} {name : String} (clean : '\x00' ∉ name.toList)
    (short : name.utf8ByteSize + temporaryExtra ≤ Tree.nameLimit)
    (fits : directory.Fits (name.utf8ByteSize + temporaryExtra + 1)) :
    hasTemporary directory name := by
  have zeros : (String.ofList (List.replicate tokenLength '0')).utf8ByteSize = tokenLength := by
    decide
  have noNul : '\x00' ∉ (String.ofList (List.replicate tokenLength '0')).toList := by decide
  have size := utf8ByteSize_temporaryName name zeros
  have temporaryFits : (temporary directory name
      (String.ofList (List.replicate tokenLength '0'))).Fits 0 := by
    refine Path.Fits.child ?_ (not_mem_temporaryName clean noNul (by decide))
    rw [size]
    exact fits.trimmed
  rw [hasTemporary, Bool.and_eq_true]
  refine ⟨?_, temporaryFits.isUsable⟩
  rw [Tree.fits, size]
  exact decide_eq_true short

end Replacement

/-! ## Plain names -/

/-- Whether a text names an entry of a directory when it is joined to the path of the directory. -/
def Path.IsPlain (name : String) : Prop :=
  name ≠ "" ∧ name ≠ "." ∧ name ≠ ".." ∧ '/' ∉ name.toList

theorem Text.splitAt_of_not_mem {separator : Char} {text : List Char} (absent : separator ∉ text) :
    splitAt separator text = [text] := by
  induction text with
  | nil => rfl
  | cons c rest ih =>
      simp only [List.mem_cons, not_or] at absent
      rw [splitAt, if_neg (Ne.symm absent.1), ih absent.2]

theorem Text.splitAt_replicate_append (separator : Char) (count : Nat) (text : List Char) :
    splitAt separator (List.replicate count separator ++ text) =
      List.replicate count [] ++ splitAt separator text := by
  induction count with
  | zero => rfl
  | succ count ih =>
      rw [List.replicate_succ, List.cons_append, splitAt, if_pos rfl, ih, List.replicate_succ,
        List.cons_append]

/-- Slashes before a path do not change its steps. -/
theorem Path.stepsOfText_slashes (count : Nat) (text : List Char) :
    stepsOfText (String.ofList (List.replicate count '/' ++ text)) =
      stepsOfText (String.ofList text) := by
  have none : (List.replicate count ([] : List Char)).filterMap
      (fun part => Step.ofText? (String.ofList part)) = [] := by
    refine List.filterMap_eq_nil_iff.2 fun part member => ?_
    rw [List.eq_of_mem_replicate member]
    rfl
  rw [stepsOfText, stepsOfText, String.toList_ofList, String.toList_ofList,
    Text.splitAt_replicate_append, List.filterMap_append, none, List.nil_append]

theorem Path.textEndsInSlash_child (base : Path) {name : String} (plain : IsPlain name) :
    textEndsInSlash (base.child name).text = false := by
  obtain ⟨notEmpty, -, -, noSlash⟩ := plain
  have letters : name.toList ≠ [] := fun none => notEmpty (String.toList_eq_nil_iff.1 none)
  have nonempty := List.getLast?_eq_some_getLast letters
  have last : (joinText base.text name).toList.getLast? = name.toList.getLast? := by
    unfold joinText
    split
    · rw [String.toList_append, List.getLast?_append, nonempty, Option.some_or]
    · rw [String.toList_append, List.getLast?_append, nonempty, Option.some_or]
  rw [child, textEndsInSlash, last, beq_eq_false_iff_ne]
  exact fun slash => noSlash (List.mem_of_getLast? slash)

/-- Joining a plain name to a path leads to the entry of the name. -/
theorem Path.join_of_isPlain (base : Path) {name : String} (plain : IsPlain name) :
    base.join name = base.child name := by
  have ends := base.textEndsInSlash_child plain
  obtain ⟨notEmpty, notDot, notDots, noSlash⟩ := plain
  have start : name.toList.head? ≠ some '/' := by
    intro slash
    exact noSlash (List.mem_of_mem_head? slash)
  have steps : stepsOfText name = [.down name] := by
    rw [stepsOfText, Text.splitAt_of_not_mem noSlash]
    simp [Step.ofText?, notEmpty, notDot, notDots]
  rw [child] at ends
  simp only [join, if_neg start, child, steps, ends]

theorem Text.mem_strip {drop : Char → Bool} {text : List Char} {c : Char} (member : c ∈ text)
    (kept : drop c = false) : c ∈ strip drop text := by
  have stays : ∀ chars : List Char, c ∈ chars → c ∈ chars.dropWhile drop := by
    intro chars inChars
    have split := List.takeWhile_append_dropWhile (p := drop) (l := chars)
    rw [← split] at inChars
    rcases List.mem_append.1 inChars with early | late
    · have every := List.all_eq_true.1 (List.all_takeWhile (p := drop) (l := chars)) c early
      rw [kept] at every
      cases every
    · exact late
  exact List.mem_reverse.2 (stays _ (List.mem_reverse.2 (stays text member)))

/-- An allowed name of a workspace is plain. -/
theorem Settings.isPlain_of_isPlainName {name : String} (allowed : isPlainName name) :
    Path.IsPlain name := by
  simp only [isPlainName, Bool.and_eq_true, bne_iff_ne, ne_eq, Bool.not_eq_true',
    List.contains_eq_mem, decide_eq_false_iff_not] at allowed
  obtain ⟨⟨⟨⟨visible, notDot⟩, notDots⟩, noSlash⟩, -⟩ := allowed
  refine ⟨?_, ?_, ?_, fun slash => noSlash (Text.mem_strip slash (by decide))⟩
  · rintro rfl
    exact visible (by decide)
  · rintro rfl
    exact notDot (by decide)
  · rintro rfl
    exact notDots (by decide)

end GraphStore
