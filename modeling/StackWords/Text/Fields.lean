/-! # Cutting texts into fields

A separator cuts a text into fields; a field may be empty, and a text always
has at least one. Joining the fields with the separator restores the text.
-/
namespace StackWords.Text

def extendFirst (c : Char) : List (List Char) → List (List Char)
  | [] => [[c]]
  | field :: rest => (c :: field) :: rest

def fields (separator : Char) : List Char → List (List Char)
  | [] => [[]]
  | c :: cs =>
    if c = separator then [] :: fields separator cs
    else extendFirst c (fields separator cs)

/-- The text in front of the first character that satisfies `p`, and the text behind it. -/
def cut? (p : Char → Bool) (cs : List Char) : Option (List Char × List Char) :=
  match cs.dropWhile (fun c => !p c) with
  | [] => none
  | _ :: rest => some (cs.takeWhile (fun c => !p c), rest)

def byteLength : List Char → Nat
  | [] => 0
  | c :: cs => c.utf8Size + byteLength cs

/-- The longest beginning of a text that takes at most `n` bytes in UTF-8. -/
def takeBytes : Nat → List Char → List Char
  | _, [] => []
  | n, c :: cs => if c.utf8Size ≤ n then c :: takeBytes (n - c.utf8Size) cs else []

/-- What is left of a text when its first `n` bytes in UTF-8 are taken away. A character of which
a part is taken away goes as a whole. -/
def dropBytes : Nat → List Char → List Char
  | 0, cs => cs
  | _, [] => []
  | n + 1, c :: cs => dropBytes (n + 1 - c.utf8Size) cs

/-- A cut takes the first separator away, and around it stand the parts of the text. -/
theorem cut?_eq_some {p : Char → Bool} {cs front rest : List Char}
    (h : cut? p cs = some (front, rest)) :
    ∃ c, p c = true ∧ cs = front ++ c :: rest ∧ ∀ other ∈ front, p other = false := by
  have htext := List.takeWhile_append_dropWhile (p := fun c => !p c) (l := cs)
  have hhead := List.head?_dropWhile_not (fun c => !p c) cs
  unfold cut? at h
  cases hdrop : cs.dropWhile fun c => !p c with
  | nil => simp [hdrop] at h
  | cons c behind =>
    simp only [hdrop, Option.some.injEq, Prod.mk.injEq] at h
    obtain ⟨rfl, rfl⟩ := h
    rw [hdrop] at htext hhead
    refine ⟨c, by simpa using hhead, htext.symm, fun other hmem => ?_⟩
    simpa using List.all_eq_true.mp List.all_takeWhile other hmem

theorem fields_ne_nil (separator : Char) (cs : List Char) : fields separator cs ≠ [] := by
  cases cs with
  | nil => simp [fields]
  | cons c cs =>
    rw [fields]
    split
    · simp
    · cases fields separator cs <;> simp [extendFirst]

/-- A character in front of the first field is a character in front of the joined text. -/
theorem intercalate_extendFirst (separator c : Char) {parts : List (List Char)}
    (h : parts ≠ []) :
    [separator].intercalate (extendFirst c parts) = c :: [separator].intercalate parts := by
  cases parts with
  | nil => exact absurd rfl h
  | cons field rest => cases rest <;> simp [extendFirst, List.intercalate]

/-- Joining the fields of a text restores it. -/
theorem intercalate_fields (separator : Char) (cs : List Char) :
    [separator].intercalate (fields separator cs) = cs := by
  induction cs with
  | nil => rfl
  | cons c cs ih =>
    rw [fields]
    split
    · next h =>
      obtain ⟨field, rest, hf⟩ := List.exists_cons_of_ne_nil (fields_ne_nil separator cs)
      rw [hf] at ih ⊢
      rw [h, ← ih]
      simp [List.intercalate]
    · rw [intercalate_extendFirst separator c (fields_ne_nil separator cs), ih]

/-- The fields of a text hold no other characters than the text. -/
theorem mem_of_mem_fields {separator c : Char} {cs field : List Char}
    (hf : field ∈ fields separator cs) (hc : c ∈ field) : c ∈ cs := by
  induction cs generalizing field with
  | nil =>
    obtain rfl := List.mem_singleton.mp hf
    exact hc
  | cons d cs ih =>
    rw [fields] at hf
    split at hf
    · rcases List.mem_cons.mp hf with rfl | hf
      · cases hc
      · exact List.mem_cons_of_mem d (ih hf hc)
    · obtain ⟨first, rest, hparts⟩ := List.exists_cons_of_ne_nil (fields_ne_nil separator cs)
      rw [hparts] at hf ih
      rcases List.mem_cons.mp hf with rfl | hf
      · rcases List.mem_cons.mp hc with rfl | hc
        · exact List.mem_cons_self
        · exact List.mem_cons_of_mem d (ih List.mem_cons_self hc)
      · exact List.mem_cons_of_mem d (ih (List.mem_cons_of_mem first hf) hc)

@[simp] theorem byteLength_append (cs ds : List Char) :
    byteLength (cs ++ ds) = byteLength cs + byteLength ds := by
  induction cs with
  | nil => simp [byteLength]
  | cons c cs ih => simp only [List.cons_append, byteLength, ih]; omega

theorem byteLength_toList (s : String) : byteLength s.toList = s.utf8ByteSize := by
  have hlist : ∀ cs : List Char, byteLength cs = (String.ofList cs).utf8ByteSize := by
    intro cs
    induction cs with
    | nil => rfl
    | cons c cs ih =>
      rw [byteLength, ih, String.ofList_cons, String.utf8ByteSize_append,
        String.utf8ByteSize_singleton]
  rw [hlist, String.ofList_toList]

/-- Between two characters a text is cut where it is said to be. -/
theorem takeBytes_byteLength_append (cs ds : List Char) :
    takeBytes (byteLength cs) (cs ++ ds) = cs := by
  induction cs with
  | nil =>
    cases ds with
    | nil => rfl
    | cons d ds =>
      have hpos := d.utf8Size_pos
      rw [List.nil_append, byteLength, takeBytes, if_neg (by omega)]
  | cons c cs ih =>
    rw [List.cons_append, byteLength, takeBytes, if_pos (Nat.le_add_right _ _),
      Nat.add_sub_cancel_left, ih]

end StackWords.Text
