import StackWords.Console.Completion
import StackWords.Proofs.Cutting

/-! # What completion replaces

What stands between a comma and the cursor is replaced by a text that goes on from it,
and nothing in front of it changes. Places in a line are counted in bytes, so it is
shown on the way that the replaced text starts between two characters.
-/
namespace StackWords.Console.Completion

/-- The text in front of a cursor that can be completed, and the text in front of that: the last
comma and blanks behind it. -/
structure IsTyped (line : String) (cursor : Nat) (front typed : String) : Prop where
  exists_rest : ∃ rest, line = front ++ typed ++ rest
  cursor_eq : cursor = front.utf8ByteSize + typed.utf8ByteSize
  behind_comma : Text.trimEnd front.toList = [] ∨ (Text.trimEnd front.toList).getLast? = some ','
  comma_notMem : ',' ∉ typed.toList
  head_not_blank : ∀ c ∈ typed.toList.head?, Text.isBlank c = false

theorem trimEnd_behind_comma (cs : List Char) :
    Text.trimEnd (cs.dropWhile (· ≠ ',')).reverse = [] ∨
      (Text.trimEnd (cs.dropWhile (· ≠ ',')).reverse).getLast? = some ',' := by
  have hhead := List.head?_dropWhile_not (· ≠ ',') cs
  rw [Text.trimEnd, List.reverse_reverse]
  cases hback : cs.dropWhile (· ≠ ',') with
  | nil => exact Or.inl rfl
  | cons c back =>
    rw [hback] at hhead
    obtain rfl : c = ',' := by simpa using hhead
    have hblank : ¬ Text.isBlank ',' := by decide
    rw [List.dropWhile_cons_of_neg hblank, List.getLast?_reverse]
    exact Or.inr rfl

/-- What counts as typed is the end of the text in front of the cursor. -/
theorem exists_front (before : List Char) :
    ∃ front, before = front ++ typed before ∧
      (Text.trimEnd front = [] ∨ (Text.trimEnd front).getLast? = some ',') := by
  have hblanks : ∀ c ∈ (before.reverse.takeWhile (· ≠ ',')).reverse.takeWhile Text.isBlank,
      Text.isBlank c := fun c => List.mem_takeWhile_imp
  refine ⟨(before.reverse.dropWhile (· ≠ ',')).reverse ++
    (before.reverse.takeWhile (· ≠ ',')).reverse.takeWhile Text.isBlank, ?_, ?_⟩
  · rw [List.append_assoc, typed, Text.trimStart, List.takeWhile_append_dropWhile,
      ← List.reverse_append, List.takeWhile_append_dropWhile, List.reverse_reverse]
  · rw [Text.trimEnd_append hblanks]
    exact trimEnd_behind_comma before.reverse

theorem comma_notMem_typed (before : List Char) : ',' ∉ typed before := by
  intro hmem
  have hfield := (List.dropWhile_sublist Text.isBlank).mem hmem
  have hne := List.mem_takeWhile_imp (List.mem_reverse.mp hfield)
  simp at hne

theorem head_typed_not_blank (before : List Char) :
    ∀ c ∈ (typed before).head?, Text.isBlank c = false := by
  intro c hc
  have hhead := List.head?_dropWhile_not Text.isBlank
    (before.reverse.takeWhile (· ≠ ',')).reverse
  rw [typed, Text.trimStart] at hc
  rw [Option.mem_def.mp hc] at hhead
  exact hhead

variable {words : List String} {start : Nat} {text : List Char}

theorem isPrefixOf_eq_decide (cs : List Char) (s : String) :
    cs.isPrefixOf s.toList = decide (cs <+: s.toList) := by
  rw [Bool.eq_iff_iff, List.isPrefixOf_iff_prefix, decide_eq_true_iff]

theorem options_of_colon (words : List String) (start : Nat) (name : List Char) :
    options words start (':' :: name) =
      (words.filter fun w => name <+: w.toList).map (":" ++ ·) := by
  simp only [options, isPrefixOf_eq_decide]

theorem options_of_dot (words : List String) (rest : List Char) :
    options words 0 ('.' :: rest) = commands.filter fun c => '.' :: rest <+: c.toList := by
  simp only [options, ↓reduceIte, isPrefixOf_eq_decide]

/-- Nothing is offered but for words and, at the start of a line, for commands. -/
theorem options_eq_nil (hcolon : text.head? ≠ some ':')
    (hdot : ¬ (start = 0 ∧ text.head? = some '.')) : options words start text = [] := by
  unfold options
  split
  · exact absurd rfl hcolon
  · exact if_neg fun hstart => hdot ⟨hstart, rfl⟩
  · rfl

theorem options_cases (words : List String) (start : Nat) (text : List Char) :
    (∃ name, text = ':' :: name) ∨ (∃ rest, start = 0 ∧ text = '.' :: rest) ∨
      options words start text = [] := by
  by_cases hcolon : text.head? = some ':'
  · exact Or.inl (List.head?_eq_some_iff.mp hcolon)
  · by_cases hdot : start = 0 ∧ text.head? = some '.'
    · obtain ⟨rest, hrest⟩ := List.head?_eq_some_iff.mp hdot.2
      exact Or.inr (Or.inl ⟨rest, hdot.1, hrest⟩)
    · exact Or.inr (Or.inr (options_eq_nil hcolon hdot))

theorem prefix_of_mem_options {option : String} (h : option ∈ options words start text) :
    text <+: option.toList := by
  rcases options_cases words start text with ⟨name, rfl⟩ | ⟨rest, rfl, rfl⟩ | hnone
  · rw [options_of_colon] at h
    obtain ⟨w, hw, rfl⟩ := List.mem_map.mp h
    have hprefix : name <+: w.toList := by simpa using (List.mem_filter.mp hw).2
    rw [String.toList_append]
    exact List.cons_prefix_cons.mpr ⟨rfl, hprefix⟩
  · rw [options_of_dot] at h
    simpa using (List.mem_filter.mp h).2
  · rw [hnone] at h
    cases h

theorem head_of_mem_commands {command : String} (h : command ∈ commands) :
    command.toList.head? = some '.' := by
  have hall : ∀ command ∈ commands, command.toList.head? = some '.' := by decide
  exact hall command h

/-- Commands are offered at the start of a line only, for a text that starts like one. -/
theorem start_of_command_mem_options {command : String} (hc : command ∈ commands)
    (h : command ∈ options words start text) : start = 0 ∧ text.head? = some '.' := by
  have hhead := head_of_mem_commands hc
  rcases options_cases words start text with ⟨name, rfl⟩ | ⟨rest, rfl, rfl⟩ | hnone
  · obtain ⟨more, hmore⟩ := prefix_of_mem_options h
    rw [← hmore] at hhead
    cases hhead
  · exact ⟨rfl, rfl⟩
  · rw [hnone] at h
    cases h

/-- The typed text stands between two characters of the line. -/
theorem isTyped_typed {line : String} {cursor : Nat}
    (h : String.Pos.Raw.IsValid line ⟨cursor⟩) :
    ∃ front : String,
      IsTyped line cursor front (String.ofList (typed (Text.takeBytes cursor line.toList))) ∧
        cursor - Text.byteLength (typed (Text.takeBytes cursor line.toList)) =
          front.utf8ByteSize := by
  -- In front of the cursor stand whole characters, so they are what is taken by bytes.
  obtain ⟨before, rest, rfl, hcursor⟩ := String.Pos.Raw.isValid_iff_exists_append.mp h
  obtain rfl : cursor = before.utf8ByteSize := congrArg String.Pos.Raw.byteIdx hcursor
  have htaken : Text.takeBytes before.utf8ByteSize (before ++ rest).toList = before.toList := by
    rw [← Text.byteLength_toList, String.toList_append, Text.takeBytes_byteLength_append]
  rw [htaken]
  obtain ⟨front, hfront, hcomma⟩ := exists_front before.toList
  have hbefore : before = String.ofList front ++ String.ofList (typed before.toList) := by
    apply String.toList_injective
    rw [String.toList_append, String.toList_ofList, String.toList_ofList, ← hfront]
  have hsize : before.utf8ByteSize =
      (String.ofList front).utf8ByteSize +
        (String.ofList (typed before.toList)).utf8ByteSize := by
    rw [← String.utf8ByteSize_append, ← hbefore]
  have hlength : Text.byteLength (typed before.toList) =
      (String.ofList (typed before.toList)).utf8ByteSize := by
    rw [← Text.byteLength_toList, String.toList_ofList]
  refine ⟨String.ofList front, ⟨⟨rest, by rw [← hbefore]⟩, hsize, ?_, ?_, ?_⟩, by omega⟩
  · rwa [String.toList_ofList]
  · rw [String.toList_ofList]
    exact comma_notMem_typed before.toList
  · rw [String.toList_ofList]
    exact head_typed_not_blank before.toList

/-- Completion replaces what is typed and leaves what stands in front. For a text that starts with a
colon all words are offered that go on from it, for one that starts with a dot at the start of the
line all commands, and nothing for other texts. -/
theorem proposals_go_on_from_typed_text (words : List String) {line : String} {cursor : Nat}
    (h : String.Pos.Raw.IsValid line ⟨cursor⟩) :
    ∃ front typed : String, IsTyped line cursor front typed ∧
      (propose words line cursor).start = front.utf8ByteSize ∧
      (∀ option ∈ (propose words line cursor).options, typed.toList <+: option.toList) ∧
      (∀ name, typed = ":" ++ name → (propose words line cursor).options =
        (words.filter fun w => name.toList <+: w.toList).map (":" ++ ·)) ∧
      (∀ option ∈ (propose words line cursor).options, option ∈ commands →
        (propose words line cursor).start = 0 ∧ typed.toList.head? = some '.') ∧
      ((propose words line cursor).start = 0 → typed.toList.head? = some '.' →
        (propose words line cursor).options =
          commands.filter fun c => typed.toList <+: c.toList) ∧
      (typed.toList.head? ≠ some ':' →
        ¬ ((propose words line cursor).start = 0 ∧ typed.toList.head? = some '.') →
        (propose words line cursor).options = []) := by
  obtain ⟨front, htyped, hstart⟩ := isTyped_typed h
  refine ⟨front, _, htyped, hstart, ?_⟩
  rw [String.toList_ofList]
  refine ⟨fun option hoption => prefix_of_mem_options hoption, ?_,
    fun option hoption hcommand => start_of_command_mem_options hcommand hoption, ?_,
    options_eq_nil⟩
  · intro name hname
    have htext := congrArg String.toList hname
    rw [String.toList_ofList, String.toList_append] at htext
    have hoptions := options_of_colon words (propose words line cursor).start name.toList
    rw [← hoptions]
    exact congrArg (options words _) htext
  · intro hzero hdot
    obtain ⟨rest, hrest⟩ := List.head?_eq_some_iff.mp hdot
    have hoptions := options_of_dot words rest
    rw [← hrest, ← hzero] at hoptions
    exact hoptions

theorem word_behind_wide_blank_is_completed :
    let words := ["dup", "swap", "dx", "drop"]
    let line := "\u00e9,\u3000 :dx,y"
    String.Pos.Raw.IsValid line ⟨9⟩ ∧
      propose words line 9 = { start := 7, options := [":dup", ":dx", ":drop"] } ∧
      (∃ front typed, IsTyped line 9 front typed ∧ front.utf8ByteSize = 7 ∧
        ∀ option ∈ [":dup", ":dx", ":drop"], typed.toList <+: option.toList) ∧
      propose words ".st" 3 = { start := 0, options := [".stack"] } ∧
      ∃ front typed, IsTyped ".st" 3 front typed ∧ front.utf8ByteSize = 0 ∧
        typed.toList.head? = some '.' := by
  intro words line
  have hvalid : String.Pos.Raw.IsValid line ⟨9⟩ :=
    String.Pos.Raw.isValid_iff_exists_append.mpr ⟨"\u00e9,\u3000 :d", "x,y", rfl, rfl⟩
  have hwords : propose words line 9 = { start := 7, options := [":dup", ":dx", ":drop"] } := by
    decide +kernel
  have hend : String.Pos.Raw.IsValid ".st" ⟨3⟩ :=
    String.Pos.Raw.isValid_iff_exists_append.mpr ⟨".st", "", rfl, rfl⟩
  have hcommands : propose words ".st" 3 = { start := 0, options := [".stack"] } := by
    decide +kernel
  obtain ⟨front, typed, htyped, hstart, hprefix, -⟩ := proposals_go_on_from_typed_text words hvalid
  obtain ⟨front', typed', htyped', hstart', -, -, hcommand, -⟩ :=
    proposals_go_on_from_typed_text words hend
  rw [hwords] at hstart hprefix
  rw [hcommands] at hstart' hcommand
  exact ⟨hvalid, hwords, ⟨front, typed, htyped, hstart.symm, hprefix⟩, hcommands, front', typed',
    htyped', hstart'.symm, (hcommand ".stack" List.mem_cons_self (by decide)).2⟩

end StackWords.Console.Completion
