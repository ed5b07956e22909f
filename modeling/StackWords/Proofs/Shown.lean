import StackWords.Console.Highlight

/-! # What is shown of a styled text

A terminal shows the characters of a text but those of the sequences that start with
an escape character and end with the next `m`. A style put on a text by such a sequence
and taken off by another is not shown, so highlighting leaves what is read.
-/
namespace StackWords.Console

def escape : Char := '\x1b'

/-- The characters of a text outside of sequences; the flag tells whether it starts in one. -/
def shownFrom : Bool → List Char → List Char
  | _, [] => []
  | true, c :: cs => shownFrom (c ≠ 'm') cs
  | false, c :: cs => if c = escape then shownFrom true cs else c :: shownFrom false cs

def shown (text : String) : String := String.ofList (shownFrom false text.toList)

theorem shownFrom_append {cs : List Char} (h : escape ∉ cs) (ds : List Char) :
    shownFrom false (cs ++ ds) = cs ++ shownFrom false ds := by
  induction cs with
  | nil => rfl
  | cons c cs ih =>
    obtain ⟨hc, hcs⟩ := not_or.mp (mt List.mem_cons.mpr h)
    rw [List.cons_append, shownFrom, if_neg (Ne.symm hc), ih hcs, List.cons_append]

/-- A text without escape characters is shown as it is. -/
theorem shownFrom_eq_self {cs : List Char} (h : escape ∉ cs) : shownFrom false cs = cs := by
  have happend := shownFrom_append h []
  rwa [List.append_nil, shownFrom, List.append_nil] at happend

/-- Inside of a sequence nothing is shown up to its end. -/
theorem shownFrom_code {code : List Char} (h : 'm' ∉ code) (cs : List Char) :
    shownFrom true (code ++ 'm' :: cs) = shownFrom false cs := by
  induction code with
  | nil => simp [shownFrom]
  | cons c code ih =>
    obtain ⟨hc, hcode⟩ := not_or.mp (mt List.mem_cons.mpr h)
    simp only [List.cons_append, shownFrom, Ne.symm hc, ne_eq, not_false_eq_true, decide_true,
      ih hcode]

namespace Style

/-- A style whose code does not end its own sequence. -/
def IsCode (style : Style) : Prop := 'm' ∉ style.toList

instance (style : Style) : Decidable style.IsCode := inferInstanceAs (Decidable (_ ∉ _))

variable {style : Style}

theorem IsCode.shownFrom_sequence (h : style.IsCode) (cs : List Char) :
    shownFrom false (style.sequence.toList ++ cs) = shownFrom false cs := by
  have hcode : 'm' ∉ '[' :: style.toList := mt List.mem_cons.mp (not_or.mpr ⟨by decide, h⟩)
  have htext : style.sequence.toList ++ cs = escape :: ('[' :: style.toList ++ 'm' :: cs) := by
    simp [sequence, escape]
  rw [htext, shownFrom, if_pos rfl, shownFrom_code hcode]

/-- Of a text in a style the text is shown, and then what stands behind it. -/
theorem IsCode.shownFrom_paint (h : style.IsCode) {text : String} (htext : escape ∉ text.toList)
    (cs : List Char) :
    shownFrom false ((style.paint text).toList ++ cs) = text.toList ++ shownFrom false cs := by
  have hreset : IsCode "0" := by decide
  rw [paint, String.toList_append, String.toList_append, List.append_assoc, List.append_assoc,
    h.shownFrom_sequence, shownFrom_append htext, hreset.shownFrom_sequence]

end Style

namespace Highlight

theorem isCode_of_style? {isNumber : List Char → Bool} {token : List Char} {style : Style}
    (h : style? isNumber token = some style) : style.IsCode := by
  unfold style? at h
  split at h
  · cases h
  · cases h
    decide
  · cases h
    decide
  · cases h
    decide
  · split at h <;> cases h
    decide

/-- A field is shown as it stands in the line, whether it is styled or not. -/
theorem shownFrom_field (isNumber : List Char → Bool) {cs : List Char} (h : escape ∉ cs)
    (ds : List Char) :
    shownFrom false ((field isNumber cs).toList ++ ds) = cs ++ shownFrom false ds := by
  have htext : escape ∉ (String.ofList cs).toList := by rwa [String.toList_ofList]
  unfold field
  cases hs : style? isNumber (Text.trim cs) with
  | none => rw [Option.elim_none, String.toList_ofList, shownFrom_append h]
  | some style =>
    rw [Option.elim_some, (isCode_of_style? hs).shownFrom_paint htext, String.toList_ofList]

/-- Of fields joined by styled commas the fields joined by commas are shown. -/
theorem shownFrom_intercalate (isNumber : List Char → Bool) {fields : List (List Char)}
    (h : ∀ cs ∈ fields, escape ∉ cs) :
    shownFrom false
        ((Style.faint.paint ",").toList.intercalate
          ((fields.map (field isNumber)).map String.toList)) =
      [','].intercalate fields := by
  have hcomma : Style.faint.IsCode := by decide
  have hplain : escape ∉ ",".toList := by decide
  induction fields with
  | nil => rfl
  | cons cs fields ih =>
    obtain ⟨hcs, hrest⟩ := List.forall_mem_cons.mp h
    have hfield := shownFrom_field isNumber hcs
    cases fields with
    | nil => simpa [shownFrom] using hfield []
    | cons ds fields =>
      have ih := ih hrest
      simp only [List.map_cons, List.intercalate_cons_cons] at ih ⊢
      rw [List.append_assoc, hfield, hcomma.shownFrom_paint hplain, ih, List.append_assoc]
      rfl

theorem toList_lineWith_eq (isNumber : List Char → Bool) (text : String) :
    lineWith isNumber text = text ∨
      (lineWith isNumber text).toList = (Style.faint.paint ",").toList.intercalate
        (((Text.fields ',' text.toList).map (field isNumber)).map String.toList) := by
  unfold lineWith
  split
  · exact Or.inl rfl
  · exact Or.inl rfl
  · exact Or.inr String.toList_intercalate

end Highlight

/-- Of a highlighted line the line is shown, whatever texts count as numbers. -/
theorem highlighting_shows_line {text : String} (h : escape ∉ text.toList) :
    (∀ isNumber, shown (Highlight.lineWith isNumber text) = text) ∧
      shown (Highlight.line text) = text := by
  have hshown : ∀ isNumber, shown (Highlight.lineWith isNumber text) = text := by
    intro isNumber
    apply String.toList_injective
    rw [shown, String.toList_ofList]
    rcases Highlight.toList_lineWith_eq isNumber text with hline | hline
    · rw [hline, shownFrom_eq_self h]
    · have hfields : ∀ cs ∈ Text.fields ',' text.toList, escape ∉ cs :=
        fun cs hcs => mt (Text.mem_of_mem_fields hcs) h
      rw [hline, Highlight.shownFrom_intercalate isNumber hfields, Text.intercalate_fields]
  exact ⟨hshown, hshown _⟩

theorem line_of_sequence_ends_is_shown :
    let text := "[m,\u3000:m ,(,-inf,1.m,"
    let comma := "\x1b[2m,\x1b[0m"
    escape ∉ text.toList ∧
      Highlight.line text = "[m" ++ comma ++ "\x1b[36m\u3000:m \x1b[0m" ++ comma ++
        "\x1b[1;33m(\x1b[0m" ++ comma ++ "\x1b[35m-inf\x1b[0m" ++ comma ++ "1.m" ++ comma ∧
      shown (Highlight.line text) = text ∧
      shown (Highlight.lineWith (fun token => token.contains 'm') text) = text := by
  intro text comma
  have hplain : escape ∉ text.toList := by decide
  obtain ⟨hshown, hline⟩ := highlighting_shows_line hplain
  exact ⟨hplain, by decide +kernel, hline, hshown _⟩

end StackWords.Console
