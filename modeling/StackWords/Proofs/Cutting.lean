import Mathlib.Data.List.TakeWhile
import StackWords.Token

/-! # Cutting a text at its separators

A segment of a text is read character by character, and behind it no bracket is
open. What a character is depends on the text around it only through the nearest
characters that are not blank and through the parentheses ahead, so blanks and
empty segments around the segments do not matter. Hence a list of segments is cut
out of a text just when the trimmed segments are cut out of their own.
-/
namespace StackWords

namespace Text

theorem trimStart_append {front : List Char} (h : ∀ c ∈ front, isBlank c) (cs : List Char) :
    trimStart (front ++ cs) = trimStart cs := by
  rw [trimStart, List.dropWhile_append_of_pos h, trimStart]

theorem trimEnd_append {back : List Char} (h : ∀ c ∈ back, isBlank c) (cs : List Char) :
    trimEnd (cs ++ back) = trimEnd cs := by
  have hback : ∀ c ∈ back.reverse, isBlank c := fun c hc => h c (List.mem_reverse.mp hc)
  rw [trimEnd, List.reverse_append, List.dropWhile_append_of_pos hback, trimEnd]

/-- Blanks around a text do not change its trimmed form. -/
theorem trim_append {front back : List Char} (hfront : ∀ c ∈ front, isBlank c)
    (hback : ∀ c ∈ back, isBlank c) (cs : List Char) :
    trim (front ++ cs ++ back) = trim cs := by
  rw [List.append_assoc, trim, trimStart_append hfront, trim, trimStart, List.dropWhile_append]
  split
  · next h =>
    have hcs : cs.dropWhile isBlank = [] := List.isEmpty_iff.mp h
    have hb : back.dropWhile isBlank = [] := List.dropWhile_eq_nil_iff.mpr hback
    rw [trimStart, hcs, hb]
  · exact trimEnd_append hback _

theorem trim_cons_blank {c : Char} (h : isBlank c) (cs : List Char) :
    trim (c :: cs) = trim cs := by
  have htrim := trim_append (List.forall_mem_singleton.mpr h) (List.forall_mem_nil _) cs
  rwa [List.append_nil, List.singleton_append] at htrim

theorem trim_append_blanks {back : List Char} (h : ∀ c ∈ back, isBlank c) (cs : List Char) :
    trim (cs ++ back) = trim cs :=
  trim_append (List.forall_mem_nil _) h cs

/-- A text is its trimmed form between blanks. -/
theorem exists_trim (cs : List Char) :
    ∃ front back, cs = front ++ trim cs ++ back ∧ (∀ c ∈ front, isBlank c) ∧
      ∀ c ∈ back, isBlank c := by
  have hfront : ∀ c ∈ cs.takeWhile isBlank, isBlank c := fun c => List.mem_takeWhile_imp
  have hback : ∀ c ∈ ((trimStart cs).reverse.takeWhile isBlank).reverse, isBlank c := by
    intro c hc
    exact List.mem_takeWhile_imp (List.mem_reverse.mp hc)
  refine ⟨_, _, ?_, hfront, hback⟩
  rw [List.append_assoc, trim, trimEnd, ← List.reverse_append, List.takeWhile_append_dropWhile,
    List.reverse_reverse, trimStart, List.takeWhile_append_dropWhile]

@[simp] theorem trim_trim (cs : List Char) : trim (trim cs) = trim cs := by
  obtain ⟨front, back, hcs, hfront, hback⟩ := exists_trim cs
  have h := trim_append hfront hback (trim cs)
  rw [← hcs] at h
  exact h.symm

end Text

namespace Token

variable {before before' after after' closers : List Char} {c : Char}

theorem isBoundary_cons (c : Char) (cs : List Char) :
    isBoundary (c :: cs) = if Text.isBlank c then isBoundary cs else c == ',' := by
  by_cases hc : Text.isBlank c <;> simp [isBoundary, Text.trimStart, hc]

theorem isBoundary_cons_congr (h : isBoundary before = isBoundary before') (c : Char) :
    isBoundary (c :: before) = isBoundary (c :: before') := by
  rw [isBoundary_cons, isBoundary_cons, h]

theorem closesLone_congr (h : isBoundary before = isBoundary before') (depth : Nat)
    (after : List Char) : closesLone depth before after = closesLone depth before' after := by
  induction after generalizing depth before before' with
  | nil => rfl
  | cons c after ih =>
    have hc := isBoundary_cons_congr h c
    simp only [closesLone, isLone, h]
    split
    · exact ih hc _
    · split
      · cases depth with
        | zero => rfl
        | succ depth => exact ih hc depth
      · exact ih hc depth

/-- Two texts that nothing in front of them can tell apart: the nearest character that is not blank
separates in both or in neither, and the parentheses that close the open ones are alike. -/
structure LooksLike (after after' : List Char) : Prop where
  isBoundary_eq : isBoundary after = isBoundary after'
  closesLone_eq : ∀ depth before, closesLone depth before after = closesLone depth before after'

namespace LooksLike

theorem refl (after : List Char) : LooksLike after after := ⟨rfl, fun _ _ => rfl⟩

theorem trans {last : List Char} (h : LooksLike after after') (h' : LooksLike after' last) :
    LooksLike after last :=
  ⟨h.1.trans h'.1, fun depth before => (h.2 depth before).trans (h'.2 depth before)⟩

theorem cons (h : LooksLike after after') (c : Char) : LooksLike (c :: after) (c :: after') := by
  refine ⟨isBoundary_cons_congr h.1 c, fun depth before => ?_⟩
  cases depth <;> simp only [closesLone, isLone, h.1, h.2]

theorem append (h : LooksLike after after') (cs : List Char) :
    LooksLike (cs ++ after) (cs ++ after') := by
  induction cs with
  | nil => exact h
  | cons c cs ih => exact ih.cons c

end LooksLike

def isBracket (c : Char) : Bool := (closer? c).isSome || isCloser c

theorem isBracket_eq_false : isBracket c = false ↔ closer? c = none ∧ isCloser c = false := by
  simp [isBracket]

theorem not_isBracket_of_isBlank (h : Text.isBlank c) : isBracket c = false := by
  rw [isBracket_eq_false]
  constructor
  · unfold closer?
    split
    · cases h
    · cases h
    · cases h
    · rfl
  · simp only [isCloser, Bool.or_eq_false_iff, beq_eq_false_iff_ne]
    refine ⟨⟨?_, ?_⟩, ?_⟩ <;> rintro rfl <;> cases h

theorem ne_paren_of_not_isBracket (h : isBracket c = false) : c ≠ '(' ∧ c ≠ ')' := by
  constructor <;> rintro rfl <;> cases h

/-- A character that is no bracket and does not separate is a part of its segment. -/
theorem reading_plain (h : isBracket c = false) (hs : ¬(c = ',' ∧ closers = []))
    (before after : List Char) : reading closers before c after = .part closers := by
  obtain ⟨ho, hc⟩ := isBracket_eq_false.mp h
  simp only [reading, ho, hc, Bool.false_eq_true, ↓reduceIte, hs]

theorem reading_comma (before after : List Char) : reading [] before ',' after = .separator := rfl

theorem reading_blank (h : Text.isBlank c) (closers before after : List Char) :
    reading closers before c after = .part closers := by
  refine reading_plain (not_isBracket_of_isBlank h) ?_ before after
  rintro ⟨rfl, -⟩
  cases h

theorem closesLone_cons_other (ho : c ≠ '(') (hc : c ≠ ')') (depth : Nat)
    (before after : List Char) :
    closesLone depth before (c :: after) = closesLone depth (c :: before) after := by
  simp only [closesLone, ho, hc, ↓reduceIte]

theorem closesLone_cons_blank (h : Text.isBlank c) (depth : Nat) (before after : List Char) :
    closesLone depth before (c :: after) = closesLone depth before after := by
  obtain ⟨ho, hc⟩ := ne_paren_of_not_isBracket (not_isBracket_of_isBlank h)
  have hb : isBoundary (c :: before) = isBoundary before := by rw [isBoundary_cons, if_pos h]
  rw [closesLone_cons_other ho hc, closesLone_congr hb]

/-- In front of a separator or the end it does not matter what comes before. -/
theorem closesLone_of_isBoundary (h : isBoundary after) (depth : Nat)
    (before before' : List Char) :
    closesLone depth before after = closesLone depth before' after := by
  induction after with
  | nil => rfl
  | cons c after ih =>
    rw [isBoundary_cons] at h
    split at h
    · next hblank => rw [closesLone_cons_blank hblank, closesLone_cons_blank hblank, ih h]
    · have hcomma : c = ',' := by simpa using h
      subst hcomma
      rw [closesLone_cons_other (by decide) (by decide),
        closesLone_cons_other (by decide) (by decide)]
      have hboundary : isBoundary (',' :: before) = isBoundary (',' :: before') := rfl
      exact closesLone_congr hboundary depth after

theorem LooksLike.blank (h : Text.isBlank c) (after : List Char) :
    LooksLike (c :: after) after := by
  refine ⟨by rw [isBoundary_cons, if_pos h], fun depth before => ?_⟩
  exact closesLone_cons_blank h depth before after

theorem LooksLike.blanks {blanks : List Char} (h : ∀ c ∈ blanks, Text.isBlank c)
    (after : List Char) : LooksLike (blanks ++ after) after := by
  induction blanks with
  | nil => exact .refl _
  | cons c blanks ih =>
    have hc := h c List.mem_cons_self
    exact (LooksLike.blank hc _).trans (ih fun d hd => h d (List.mem_cons_of_mem _ hd))

theorem LooksLike.comma (h : isBoundary after) : LooksLike (',' :: after) after := by
  refine ⟨h.symm, fun depth before => ?_⟩
  rw [closesLone_cons_other (by decide) (by decide)]
  exact closesLone_of_isBoundary h depth _ before

theorem reading_congr (hb : isBoundary before = isBoundary before') (ha : LooksLike after after')
    (closers : List Char) (c : Char) :
    reading closers before c after = reading closers before' c after' := by
  have hlone : isLone before after = isLone before' after' := by rw [isLone, isLone, hb, ha.1]
  have hstart : startsList before after = startsList before' after' := by
    rw [startsList, startsList, hlone, ha.2, closesLone_congr (isBoundary_cons_congr hb '(')]
  simp only [reading, hlone, hstart]

/-- The closers behind a part of a text, or nothing if the part holds a separator or a stray
bracket. -/
def closersBehind (closers before : List Char) : List Char → List Char → Option (List Char)
  | [], _ => some closers
  | c :: cs, after =>
    match reading closers before c (cs ++ after) with
    | .part closers => closersBehind closers (c :: before) cs after
    | _ => none

theorem closersBehind_cons_eq_some {cs k : List Char} :
    closersBehind closers before (c :: cs) after = some k ↔
      ∃ inner, reading closers before c (cs ++ after) = .part inner ∧
        closersBehind inner (c :: before) cs after = some k := by
  rw [closersBehind]
  cases reading closers before c (cs ++ after) <;> simp

theorem closersBehind_congr (hb : isBoundary before = isBoundary before')
    (ha : LooksLike after after') (closers cs : List Char) :
    closersBehind closers before cs after = closersBehind closers before' cs after' := by
  induction cs generalizing closers before before' with
  | nil => rfl
  | cons c cs ih =>
    have hr := reading_congr hb (ha.append cs) closers c
    simp only [closersBehind, hr]
    split
    · exact ih (isBoundary_cons_congr hb c) _
    · rfl

theorem closersBehind_comma (before seg after : List Char) :
    closersBehind [] (',' :: before) seg after = closersBehind [] [] seg after := by
  have hb : isBoundary (',' :: before) = isBoundary [] := rfl
  exact closersBehind_congr hb (.refl after) [] seg

theorem closersBehind_append (closers before p q after : List Char) :
    closersBehind closers before (p ++ q) after =
      (closersBehind closers before p (q ++ after)).bind fun k =>
        closersBehind k (p.reverse ++ before) q after := by
  induction p generalizing closers before with
  | nil => rfl
  | cons c p ih =>
    simp only [List.cons_append, closersBehind, List.append_assoc, List.reverse_cons,
      List.nil_append]
    split
    · exact ih _ _
    · rfl

theorem closersBehind_blanks {blanks : List Char} (h : ∀ c ∈ blanks, Text.isBlank c)
    (closers before after : List Char) :
    closersBehind closers before blanks after = some closers := by
  induction blanks generalizing before with
  | nil => rfl
  | cons c blanks ih =>
    have hc := reading_blank (h c List.mem_cons_self) closers before (blanks ++ after)
    simp only [closersBehind, hc]
    exact ih (fun d hd => h d (List.mem_cons_of_mem _ hd)) _

/-- The text of segments behind other segments, each with a separator in front. -/
def behind (segs : List (List Char)) : List Char := segs.flatMap fun seg => ',' :: seg

@[simp] theorem behind_nil : behind [] = [] := rfl

@[simp] theorem behind_cons (seg : List Char) (segs : List (List Char)) :
    behind (seg :: segs) = ',' :: (seg ++ behind segs) := by
  simp [behind]

theorem behind_append (segs rest : List (List Char)) :
    behind (segs ++ rest) = behind segs ++ behind rest := by
  simp [behind]

theorem isBoundary_behind (segs : List (List Char)) : isBoundary (behind segs) := by
  cases segs <;> rfl

/-- Segments that are read as such in front of one another. -/
def Cut : List (List Char) → Prop
  | [] => True
  | seg :: segs => closersBehind [] [] seg (behind segs) = some [] ∧ Cut segs

/-- What a part of a segment is: a plain character, an opening bracket, the start of a list, the
closing bracket that is due, or a lone parenthesis that closes nothing. -/
theorem reading_cases {k : List Char} (h : reading closers before c after = .part k) :
    (isBracket c = false ∧ k = closers) ∨
    (∃ closer, closer? c = some closer ∧ k = closer :: closers) ∨
    (c = '(' ∧ closers = [] ∧ isLone before after ∧ k = []) ∨
    (closer? c = none ∧ isCloser c ∧ closers = c :: k) ∨
    (c = ')' ∧ closers.head? ≠ some ')' ∧ isLone before after ∧ k = closers) := by
  unfold reading at h
  split at h
  · next closer ho =>
    split at h
    · next hstart =>
      obtain ⟨rfl, rfl, hlist⟩ := hstart
      cases h
      rw [startsList, Bool.and_eq_true] at hlist
      exact Or.inr (Or.inr (Or.inl ⟨rfl, rfl, hlist.1, rfl⟩))
    · cases h
      exact Or.inr (Or.inl ⟨closer, ho, rfl⟩)
  · next ho =>
    split at h
    · next hc =>
      split at h
      · next hlone =>
        obtain ⟨rfl, hhead, hlone⟩ := hlone
        cases h
        exact Or.inr (Or.inr (Or.inr (Or.inr ⟨rfl, hhead, hlone, rfl⟩)))
      · split at h
        · next hhead =>
          obtain ⟨rest, rfl⟩ := List.head?_eq_some_iff.mp hhead
          cases h
          exact Or.inr (Or.inr (Or.inr (Or.inl ⟨ho, hc, rfl⟩)))
        · cases h
    · next hc =>
      split at h
      · cases h
      · cases h
        exact Or.inl ⟨isBracket_eq_false.mpr ⟨ho, Bool.eq_false_iff.mpr hc⟩, rfl⟩

theorem eq_comma_of_separator (h : reading closers before c after = .separator) :
    c = ',' ∧ closers = [] := by
  unfold reading at h
  split at h
  · split at h <;> cases h
  · split at h
    · split at h
      · cases h
      · split at h <;> cases h
    · split at h
      · assumption
      · cases h

/-- A part without separators is put in front of the first segment behind it. -/
theorem segments_append {p k seg : List Char} {segs : List (List Char)}
    (hp : closersBehind closers before p after = some k)
    (hs : segments k (p.reverse ++ before) after = .ok (seg :: segs)) :
    segments closers before (p ++ after) = .ok ((p ++ seg) :: segs) := by
  induction p generalizing closers before with
  | nil =>
    cases hp
    exact hs
  | cons c p ih =>
    obtain ⟨inner, hr, hrest⟩ := closersBehind_cons_eq_some.mp hp
    have hsegs := ih hrest (by simpa using hs)
    rw [List.cons_append, segments, hr]
    simp only [hsegs, Except.map, Text.extendFirst, List.cons_append]

theorem segments_behind {segs : List (List Char)} (h : Cut segs) (before : List Char) :
    segments [] before (behind segs) = .ok ([] :: segs) := by
  induction segs generalizing before with
  | nil => rfl
  | cons seg segs ih =>
    obtain ⟨hseg, hsegs⟩ := h
    have hp : closersBehind [] (',' :: before) seg (behind segs) = some [] := by
      rw [closersBehind_comma, hseg]
    have hrest := segments_append hp (ih hsegs _)
    rw [behind_cons, segments, reading_comma]
    simp only [hrest, Except.map, List.append_nil]

theorem cut_of_segments {text : List Char} {segs : List (List Char)}
    (h : segments closers before text = .ok segs) :
    ∃ seg rest, segs = seg :: rest ∧ text = seg ++ behind rest ∧
      closersBehind closers before seg (behind rest) = some [] ∧ Cut rest := by
  induction text generalizing closers before segs with
  | nil =>
    rw [segments] at h
    split at h
    · next hc =>
      cases h
      exact ⟨[], [], rfl, rfl, congrArg some hc, trivial⟩
    · cases h
  | cons c after ih =>
    rw [segments] at h
    cases hr : reading closers before c after with
    | separator =>
      simp only [hr] at h
      obtain ⟨rfl, rfl⟩ := eq_comma_of_separator hr
      cases hs : segments [] (',' :: before) after with
      | error e => simp [hs, Except.map] at h
      | ok later =>
        obtain ⟨seg, rest, rfl, rfl, hseg, hrest⟩ := ih hs
        rw [hs] at h
        cases h
        rw [closersBehind_comma] at hseg
        exact ⟨[], seg :: rest, rfl, rfl, rfl, hseg, hrest⟩
    | part k =>
      simp only [hr] at h
      cases hs : segments k (c :: before) after with
      | error e => simp [hs, Except.map] at h
      | ok later =>
        obtain ⟨seg, rest, rfl, rfl, hseg, hrest⟩ := ih hs
        rw [hs] at h
        cases h
        exact ⟨c :: seg, rest, rfl, rfl, closersBehind_cons_eq_some.mpr ⟨k, hr, hseg⟩, hrest⟩
    | stray => simp [hr] at h

/-- The segments of a text are those that make it up and are read as such. -/
theorem segments_eq_ok_iff {text : List Char} {segs : List (List Char)} :
    segments [] [] text = .ok segs ↔ behind segs = ',' :: text ∧ Cut segs := by
  constructor
  · intro h
    obtain ⟨seg, rest, rfl, rfl, hseg, hrest⟩ := cut_of_segments h
    exact ⟨behind_cons seg rest, hseg, hrest⟩
  · rintro ⟨htext, hcut⟩
    cases segs with
    | nil => cases htext
    | cons seg rest =>
      obtain ⟨hseg, hrest⟩ := hcut
      rw [behind_cons] at htext
      cases htext
      have h := segments_append hseg (segments_behind hrest _)
      rwa [List.append_nil] at h

theorem ofSegments_cons (seg : List Char) (segs : List (List Char)) :
    ofSegments (seg :: segs) =
      if Text.trim seg = [] then ofSegments segs else Text.trim seg :: ofSegments segs := by
  by_cases h : Text.trim seg = [] <;> simp [ofSegments, h]

theorem ofSegments_append (segs more : List (List Char)) :
    ofSegments (segs ++ more) = ofSegments segs ++ ofSegments more := by
  simp [ofSegments]

/-- Segments and their trimmed forms look alike from the front. -/
theorem looksLike_ofSegments (segs : List (List Char)) :
    LooksLike (behind segs) (behind (ofSegments segs)) := by
  induction segs with
  | nil => exact .refl _
  | cons seg segs ih =>
    obtain ⟨front, back, hseg, hfront, hback⟩ := Text.exists_trim seg
    have hback' : LooksLike (back ++ behind segs) (behind (ofSegments segs)) :=
      (LooksLike.blanks hback _).trans ih
    have hlook : LooksLike (seg ++ behind segs) (Text.trim seg ++ behind (ofSegments segs)) := by
      have h := (LooksLike.blanks hfront _).trans (hback'.append (Text.trim seg))
      rwa [← List.append_assoc, ← List.append_assoc, ← hseg] at h
    rw [behind_cons, ofSegments_cons]
    split
    · next hblank =>
      -- An empty segment leaves its separator behind, next to another one or to the end.
      rw [hblank] at hlook
      exact (hlook.cons ',').trans (.comma (isBoundary_behind _))
    · rw [behind_cons]
      exact hlook.cons ','

theorem closersBehind_trim (closers before seg : List Char) (ha : LooksLike after after') :
    closersBehind closers before seg after =
      closersBehind closers before (Text.trim seg) after' := by
  obtain ⟨front, back, hseg, hfront, hback⟩ := Text.exists_trim seg
  generalize Text.trim seg = t at hseg ⊢
  have hb : isBoundary (front.reverse ++ before) = isBoundary before :=
    (LooksLike.blanks (fun c hc => hfront c (List.mem_reverse.mp hc)) before).isBoundary_eq
  have ha' : LooksLike (back ++ after) after' := (LooksLike.blanks hback _).trans ha
  calc closersBehind closers before seg after
      = closersBehind closers (front.reverse ++ before) t (back ++ after) := by
        rw [hseg, List.append_assoc, closersBehind_append, closersBehind_blanks hfront,
          Option.bind_some, closersBehind_append]
        simp only [closersBehind_blanks hback, Option.bind_fun_some]
    _ = closersBehind closers before t after' := closersBehind_congr hb ha' closers t

/-- Whether segments are read as such is seen from their trimmed forms. -/
theorem cut_ofSegments (segs : List (List Char)) : Cut (ofSegments segs) ↔ Cut segs := by
  induction segs with
  | nil => rfl
  | cons seg segs ih =>
    have htrim := closersBehind_trim [] [] seg (looksLike_ofSegments segs)
    rw [ofSegments_cons, Cut, htrim]
    split
    · next hblank =>
      rw [hblank, ih]
      simp [closersBehind]
    · rw [Cut, ih]

/-- A text made of segments with given trimmed forms. -/
def Laid (tokens : List (List Char)) (text : List Char) : Prop :=
  ∃ segs, behind segs = ',' :: text ∧ ofSegments segs = tokens

theorem Laid.trimmed {tokens : List (List Char)} {text : List Char} (h : Laid tokens text) :
    ∀ t ∈ tokens, t ≠ [] ∧ Text.trim t = t := by
  obtain ⟨segs, -, rfl⟩ := h
  intro t ht
  obtain ⟨hmem, hne⟩ := List.mem_filter.mp ht
  obtain ⟨seg, -, rfl⟩ := List.mem_map.mp hmem
  exact ⟨by simpa using hne, Text.trim_trim seg⟩

/-- The tokens of a text are those it is made of, if these are read as such by themselves. -/
theorem splitChars_eq_ok_iff {text : List Char} {tokens : List (List Char)} :
    splitChars text = .ok tokens ↔ Cut tokens ∧ Laid tokens text := by
  rw [splitChars]
  constructor
  · intro h
    cases hs : segments [] [] text with
    | error e => simp [hs, Except.map] at h
    | ok segs =>
      rw [hs] at h
      cases h
      obtain ⟨htext, hcut⟩ := segments_eq_ok_iff.mp hs
      exact ⟨(cut_ofSegments segs).mpr hcut, segs, htext, rfl⟩
  · rintro ⟨hcut, segs, htext, rfl⟩
    rw [segments_eq_ok_iff.mpr ⟨htext, (cut_ofSegments segs).mp hcut⟩]
    rfl

theorem split_eq_ok_iff {program : String} {tokens : List String} :
    split program = .ok tokens ↔ splitChars program.toList = .ok (tokens.map String.toList) := by
  rw [split]
  cases splitChars program.toList with
  | error e => simp [Except.map]
  | ok texts =>
    simp only [Except.map, Except.ok.injEq]
    constructor
    · rintro rfl
      simp
    · rintro rfl
      simp

end Token

end StackWords
