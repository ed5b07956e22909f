import StackWords.Proofs.Cutting
import StackWords.Word

/-! # The layout of a program text

Tokens can be written with any commas and blanks around them, as long as a comma
stands between two of them. If they are the tokens of one text they are the
tokens of every text that lays them out so. In particular the body of a macro can
be read back from its text.
-/
namespace StackWords

namespace Token

variable {text gap t : List Char} {tokens : List (List Char)}

def IsGap (cs : List Char) : Prop := ∀ c ∈ cs, c = ',' ∨ Text.isBlank c

theorem laid_nil : Laid [] [] := ⟨[[]], rfl, rfl⟩

theorem Laid.cons_gap {c : Char} (h : Laid tokens text) (hc : c = ',' ∨ Text.isBlank c) :
    Laid tokens (c :: text) := by
  obtain ⟨segs, htext, htokens⟩ := h
  rcases hc with rfl | hblank
  · refine ⟨[] :: segs, by rw [behind_cons, htext]; rfl, ?_⟩
    rw [ofSegments_cons, Text.trim_nil, if_pos rfl, htokens]
  · cases segs with
    | nil => cases htext
    | cons seg rest =>
      rw [behind_cons, List.cons.injEq] at htext
      refine ⟨(c :: seg) :: rest, ?_, ?_⟩
      · rw [behind_cons, List.cons_append, htext.2]
      · rw [ofSegments_cons, Text.trim_cons_blank hblank, ← ofSegments_cons, htokens]

theorem Laid.append_gap (h : Laid tokens text) (hg : IsGap gap) : Laid tokens (gap ++ text) := by
  induction gap with
  | nil => exact h
  | cons c gap ih =>
    have hrest : IsGap gap := fun d hd => hg d (List.mem_cons_of_mem _ hd)
    exact (ih hrest).cons_gap (hg c List.mem_cons_self)

theorem blank_of_isGap (hg : IsGap gap) (hcomma : ',' ∉ gap) : ∀ c ∈ gap, Text.isBlank c := by
  intro c hc
  rcases hg c hc with rfl | hblank
  · exact absurd hc hcomma
  · exact hblank

/-- A token comes in front of others with a gap between that holds a separator. -/
theorem Laid.cons_token (h : Laid tokens text) (hne : t ≠ []) (ht : Text.trim t = t)
    (hg : IsGap gap) (hcomma : ',' ∈ gap) : Laid (t :: tokens) (t ++ gap ++ text) := by
  obtain ⟨blanks, gap', rfl, hfirst⟩ := List.eq_append_cons_of_mem hcomma
  have hblank : ∀ c ∈ blanks, Text.isBlank c :=
    blank_of_isGap (fun c hc => hg c (List.mem_append_left _ hc)) hfirst
  have hg' : IsGap gap' := fun c hc =>
    hg c (List.mem_append_right _ (List.mem_cons_of_mem _ hc))
  obtain ⟨segs, htext, htokens⟩ := h.append_gap hg'
  refine ⟨(t ++ blanks) :: segs, ?_, ?_⟩
  · rw [behind_cons, htext]
    simp only [List.append_assoc, List.cons_append]
  · rw [ofSegments_cons, Text.trim_append_blanks hblank, ht, if_neg hne, htokens]

theorem laid_last (hne : t ≠ []) (ht : Text.trim t = t) (hg : IsGap gap) : Laid [t] (t ++ gap) := by
  by_cases hcomma : ',' ∈ gap
  · have h := laid_nil.cons_token hne ht hg hcomma
    rwa [List.append_nil] at h
  · have hblank := blank_of_isGap hg hcomma
    refine ⟨[t ++ gap], by rw [behind_cons, behind_nil, List.append_nil], ?_⟩
    rw [ofSegments_cons, Text.trim_append_blanks hblank, ht, if_neg hne]
    rfl

theorem laid_zipWith {gaps : List (List Char)} (ht : ∀ t ∈ tokens, t ≠ [] ∧ Text.trim t = t)
    (hlen : gaps.length = tokens.length) (hgaps : ∀ gap ∈ gaps, IsGap gap)
    (hcommas : ∀ gap ∈ gaps.dropLast, ',' ∈ gap) :
    Laid tokens (List.zipWith (· ++ ·) tokens gaps).flatten := by
  induction tokens generalizing gaps with
  | nil => simpa using laid_nil
  | cons t tokens ih =>
    obtain ⟨hne, htrim⟩ := ht t List.mem_cons_self
    match gaps, hlen with
    | gap :: gaps, hlen =>
      have hg := hgaps gap List.mem_cons_self
      rw [List.zipWith_cons_cons, List.flatten_cons]
      cases gaps with
      | nil =>
        have hnone : tokens = [] := by simpa using hlen.symm
        subst hnone
        simpa using laid_last hne htrim hg
      | cons next gaps =>
        have hcomma : ',' ∈ gap := hcommas gap (by simp [List.dropLast])
        have hrest := ih (fun t' h' => ht t' (List.mem_cons_of_mem _ h'))
          (by simpa using hlen) (fun g h' => hgaps g (List.mem_cons_of_mem _ h'))
          (fun g h' => hcommas g (List.mem_cons_of_mem _ h'))
        exact hrest.cons_token hne htrim hg hcomma

theorem intercalate_eq_behind (t : List Char) (tokens : List (List Char)) :
    [','].intercalate (t :: tokens) = t ++ behind tokens := by
  induction tokens generalizing t with
  | nil => simp
  | cons next tokens ih =>
    rw [List.intercalate_cons_cons, ih, behind_cons]
    simp only [List.append_assoc, List.singleton_append]

theorem laid_intercalate (ht : ∀ t ∈ tokens, t ≠ [] ∧ Text.trim t = t) :
    Laid tokens ([','].intercalate tokens) := by
  cases tokens with
  | nil => exact laid_nil
  | cons t tokens =>
    refine ⟨t :: tokens, by rw [behind_cons, intercalate_eq_behind], ?_⟩
    have hmap : (t :: tokens).map Text.trim = t :: tokens :=
      (List.map_congr_left fun t h => (ht t h).2).trans (List.map_id' _)
    rw [ofSegments, hmap, List.filter_eq_self]
    intro t h
    simpa using (ht t h).1

theorem toList_join_zipWith (tokens gaps : List String) :
    (String.join (List.zipWith (· ++ ·) tokens gaps)).toList =
      (List.zipWith (· ++ ·) (tokens.map String.toList) (gaps.map String.toList)).flatten := by
  induction tokens generalizing gaps with
  | nil => simp
  | cons t tokens ih =>
    cases gaps with
    | nil => simp
    | cons gap gaps =>
      have hrest := ih gaps
      rw [String.toList_join] at hrest
      simp [String.toList_join, hrest]

theorem split_intercalate {program : String} {tokens : List String}
    (h : split program = .ok tokens) : split (",".intercalate tokens) = .ok tokens := by
  obtain ⟨hcut, hlaid⟩ := splitChars_eq_ok_iff.mp (split_eq_ok_iff.mp h)
  rw [split_eq_ok_iff, String.toList_intercalate]
  exact splitChars_eq_ok_iff.mpr ⟨hcut, laid_intercalate hlaid.trimmed⟩

end Token

theorem renderValues_literals (separator : String) (texts : List String) :
    renderValues separator (texts.map .literal) = separator.intercalate texts := by
  have hmap : (texts.map Value.literal).map Value.render = texts := by
    rw [List.map_map]
    exact (List.map_congr_left fun t _ => Value.render_literal t).trans (List.map_id' _)
  rw [renderValues, hmap]

/-- The body of a macro that was read from a text is read back from the text of the body. -/
theorem Macro.read_bodyText {name program : String} {m : Macro} (h : read name program = .ok m) :
    read m.name m.bodyText = .ok m := by
  rw [read, Token.read] at h
  cases hs : Token.split program with
  | error e => simp [hs, Except.map] at h
  | ok tokens =>
    rw [hs] at h
    cases h
    rw [read, Token.read, bodyText, renderValues_literals, Token.split_intercalate hs]
    rfl

/-- Reading tokens does not depend on the layout: written with other gaps around them, of commas
and blanks and with a comma between two tokens, the tokens of a text are read again. So they are
read back from their text with plain commas, and so is the body of a macro. -/
theorem Token.split_insensitive_to_layout {program : String} {tokens : List String}
    (h : split program = .ok tokens) :
    (∀ (first : String) (gaps : List String), gaps.length = tokens.length →
      (∀ gap ∈ first :: gaps, ∀ c ∈ gap.toList, c = ',' ∨ Text.isBlank c) →
      (∀ gap ∈ gaps.dropLast, ',' ∈ gap.toList) →
      split (first ++ String.join (List.zipWith (· ++ ·) tokens gaps)) = .ok tokens) ∧
    split (",".intercalate tokens) = .ok tokens ∧
    ∀ name m, Macro.read name program = .ok m → Macro.read m.name m.bodyText = .ok m := by
  refine ⟨?_, split_intercalate h, fun name m => Macro.read_bodyText⟩
  intro first gaps hlen hgaps hcommas
  obtain ⟨hcut, hlaid⟩ := splitChars_eq_ok_iff.mp (split_eq_ok_iff.mp h)
  have hfirst : IsGap first.toList := hgaps first List.mem_cons_self
  have hrest : ∀ gap ∈ gaps.map String.toList, IsGap gap := by
    intro gap hgap
    obtain ⟨s, hs, rfl⟩ := List.mem_map.mp hgap
    exact hgaps s (List.mem_cons_of_mem _ hs)
  have hcommas' : ∀ gap ∈ (gaps.map String.toList).dropLast, ',' ∈ gap := by
    intro gap hgap
    rw [← List.map_dropLast] at hgap
    obtain ⟨s, hs, rfl⟩ := List.mem_map.mp hgap
    exact hcommas s hs
  have hzip := laid_zipWith hlaid.trimmed (by simpa using hlen) hrest hcommas'
  rw [split_eq_ok_iff, String.toList_append, toList_join_zipWith]
  exact splitChars_eq_ok_iff.mpr ⟨hcut, hzip.append_gap hfirst⟩

theorem Token.stray_closer_in_brackets_keeps_layout :
    let program := "(, a,[,),x] ,)"
    let tokens := ["(", "a", "[,),x]", ")"]
    let m : Macro := ⟨"m", tokens.map .literal⟩
    split program = .ok tokens ∧ split " ,( , a,,[,),x]\t,)\n" = .ok tokens ∧
      split "(,a,[,),x],)" = .ok tokens ∧ Macro.read "m" m.bodyText = .ok m := by
  intro program tokens m
  have h : split program = .ok tokens := by decide +kernel
  have hm : Macro.read "m" program = .ok m := by decide +kernel
  have hgaps : ∀ gap ∈ [" ,", " , ", ",,", "\t,", "\n"], ∀ c ∈ gap.toList,
      c = ',' ∨ Text.isBlank c := by simp [Text.isBlank]
  have hcommas : ∀ gap ∈ [" , ", ",,", "\t,", "\n"].dropLast, ',' ∈ gap.toList := by simp
  obtain ⟨hlayout, hjoin, hread⟩ := split_insensitive_to_layout h
  exact ⟨h, hlayout " ," [" , ", ",,", "\t,", "\n"] rfl hgaps hcommas, hjoin, hread "m" m hm⟩

end StackWords
