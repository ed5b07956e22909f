import Mathlib.Data.List.Forall2
import StackWords.Proofs.History

/-! # What a console shows and what it does

A console can show steps, labels and styles or leave them out. With steps shown, a
program is traced and its last step is kept; otherwise it is run. Whichever it is,
the sessions behind every input are the same, and the same inputs fail.
-/
namespace StackWords

theorem Session.execute_refines (s : Session) {depth deeper : Nat} (h : depth ≤ deeper)
    (program : String) : (s.execute depth program).Refines (s.execute deeper program) := by
  refine (Outcome.Refines.refl _).bind fun tokens => ?_
  exact (s.dictionary.run_refines h tokens s.context true).bind fun c => .refl _

namespace Console

theorem Command.effect_refines (s : Session) {depth deeper : Nat} (h : depth ≤ deeper)
    (command : Command) : (command.effect s depth).Refines (command.effect s deeper) := by
  cases command with
  | program text => exact s.execute_refines h text
  | trace text => exact (s.execute_refines h text).bind fun _ => .refl _
  | _ => exact .refl _

theorem Input.effect_refines (s : Session) {depth deeper : Nat} (h : depth ≤ deeper)
    (input : Input) : (input.effect s depth).Refines (input.effect s deeper) := by
  cases input with
  | line text => exact Command.effect_refines s h (.read text)
  | file name content =>
    cases content with
    | error failure => exact .refl _
    | ok content =>
      rw [Input.effect, Input.effect]
      exact (Command.effect_refines s h (.read (programOfFile content))).mapError _

theorem Turn.error?_eq_some_iff {t : Turn} {e : Error} :
    t.error? = some e ↔ t.reply = .error e := by
  rw [Turn.error?]
  cases t.reply <;> simp

def Turn.outline (t : Turn) : Session × Option Error := (t.console.session, t.error?)

def Input.outline (s : Session) (depth : Nat) (input : Input) :
    Outcome (Session × Option Error) :=
  match input.effect s depth with
  | .ok next => .ok (next, none)
  | .error e => .ok (s, some e)
  | .exhausted => .exhausted

def outlines (s : Session) (depth : Nat) : List Input → Outcome (List (Session × Option Error))
  | [] => .ok []
  | input :: inputs => do
    let entry ← input.outline s depth
    let later ← outlines entry.1 depth inputs
    pure (entry :: later)

theorem Input.outline_refines (s : Session) {depth deeper : Nat} (h : depth ≤ deeper)
    (input : Input) : (input.outline s depth).Refines (input.outline s deeper) := by
  rw [Input.outline, Input.outline]
  rcases Input.effect_refines s h input with he | he
  · rw [he]
    exact Or.inl rfl
  · rw [he]
    exact .refl _

theorem outlines_refines (s : Session) {depth deeper : Nat} (h : depth ≤ deeper)
    (inputs : List Input) : (outlines s depth inputs).Refines (outlines s deeper inputs) := by
  induction inputs generalizing s with
  | nil => exact .refl _
  | cons input inputs ih =>
    refine (Input.outline_refines s h input).bind fun entry => ?_
    exact (ih entry.1).bind fun later => .refl _

theorem turn_outline (console : Console) (depth : Nat) (input : Input) :
    (console.turn depth input >>= fun t => .ok t.outline) =
      input.outline console.session depth := by
  rw [Input.outline]
  rcases turn_effect console depth input with ⟨text, session, ht, he⟩ | ⟨e, ht, he⟩ | ⟨ht, he⟩
  · rw [ht, he]
    rfl
  · rw [ht, he]
    rfl
  · rw [ht, he]
    rfl

/-- Apart from the texts that are shown, what inputs lead to is told by the session alone. -/
theorem turns_outline (console : Console) (depth : Nat) (inputs : List Input) :
    (console.turns depth inputs >>= fun ts => .ok (ts.map Turn.outline)) =
      outlines console.session depth inputs := by
  induction inputs generalizing console with
  | nil => rfl
  | cons input inputs ih =>
    rw [turns, outlines, ← turn_outline]
    cases console.turn depth input with
    | error e => rfl
    | exhausted => rfl
    | ok t =>
      have hlater := ih t.console
      simp only [Outcome.ok_bind, Turn.outline]
      rw [← hlater]
      cases t.console.turns depth inputs <;> rfl

theorem Takes.outlines_eq {console : Console} {inputs : List Input} {ts : List Turn}
    (h : console.Takes inputs ts) :
    ∃ depth, ∀ deeper, depth ≤ deeper →
      outlines console.session deeper inputs = .ok (ts.map Turn.outline) := by
  obtain ⟨depth, h⟩ := h
  have hout := turns_outline console depth inputs
  rw [h, Outcome.ok_bind] at hout
  refine ⟨depth, fun deeper hle => ?_⟩
  have hfinished : (outlines console.session depth inputs).Finished := by
    rw [← hout]
    exact Outcome.finished_ofExcept (.ok _)
  rw [(outlines_refines console.session hle inputs).eq_of_finished hfinished, hout]

theorem exists_takes_of_outlines {console : Console} {depth : Nat} {inputs : List Input}
    {entries : List (Session × Option Error)}
    (h : outlines console.session depth inputs = .ok entries) :
    ∃ ts, console.Takes inputs ts := by
  rw [← turns_outline] at h
  obtain ⟨ts, hts, -⟩ := Outcome.bind_eq_ok_iff.mp h
  exact ⟨ts, depth, hts⟩

/-- What a console shows does not change what it does. Two consoles over the same words that start
with the same feature level and the same variables take the same inputs to an end, whatever else is
set in them. Behind every input they hold the same stack and the same variables, and the input fails
in both or in neither, with the same error. -/
theorem output_settings_keep_sessions {dictionary : Dictionary} {settings settings' : Settings}
    (hf : settings'.features = settings.features) (hv : settings'.vars = settings.vars)
    {console console' : Console} (hs : console.session = .start dictionary settings)
    (hs' : console'.session = .start dictionary settings') (inputs : List Input) :
    ((∃ ts, console.Takes inputs ts) ↔ ∃ ts', console'.Takes inputs ts') ∧
    ∀ ts ts', console.Takes inputs ts → console'.Takes inputs ts' →
      List.Forall₂ (fun t t' : Turn =>
        t'.console.session.stack = t.console.session.stack ∧
        t'.console.session.vars = t.console.session.vars ∧
        ∀ e, t'.reply = .error e ↔ t.reply = .error e) ts ts' := by
  have hsession : console'.session = console.session := by
    rw [hs, hs', Session.start, Session.start, hf, hv]
  constructor
  · constructor
    · rintro ⟨ts, h⟩
      obtain ⟨depth, hout⟩ := h.outlines_eq
      rw [← hsession] at hout
      exact exists_takes_of_outlines (hout depth (Nat.le_refl depth))
    · rintro ⟨ts', h⟩
      obtain ⟨depth, hout⟩ := h.outlines_eq
      rw [hsession] at hout
      exact exists_takes_of_outlines (hout depth (Nat.le_refl depth))
  · intro ts ts' h h'
    obtain ⟨m, hm⟩ := h.outlines_eq
    obtain ⟨n, hn⟩ := h'.outlines_eq
    -- The consoles may have taken the inputs at different limits; compare them at the larger one.
    have hts := hm (max m n) (Nat.le_max_left m n)
    have hts' := hn (max m n) (Nat.le_max_right m n)
    rw [hsession, hts, Outcome.ok.injEq] at hts'
    have hentries : List.Forall₂ Eq (ts.map Turn.outline) (ts'.map Turn.outline) := by
      rw [hts']
      exact List.forall₂_refl _
    rw [List.forall₂_map_left_iff, List.forall₂_map_right_iff] at hentries
    refine hentries.imp ?_
    intro t t' hout
    obtain ⟨hnext, herror⟩ := Prod.mk.inj hout
    refine ⟨by rw [hnext], by rw [hnext], fun e => ?_⟩
    rw [← Turn.error?_eq_some_iff, ← Turn.error?_eq_some_iff, herror]

theorem traced_and_styled_console_keeps_session :
    let settings : Settings := { vars := .ofList [("step", .literal "60")] }
    let settings' := { settings with showSteps := true, showTypes := true, banner := false }
    let console := Console.start Standard.dictionary settings
    let console' := { Console.start Standard.dictionary settings' with styled := true }
    let inputs : List Input := [.line "x", .line "a,:freeze,k,v,:set,b", .line "", .line "c,:nope",
      .file "wrong" (.ok "(,x"), .file "missing" (.error .missing), .line ".debug :swap"]
    ∃ ts ts', console.Takes inputs ts ∧ console'.Takes inputs ts' ∧
      ts.map Turn.failed = [false, false, false, true, true, true, false] ∧
      List.Forall₂ (fun t t' : Turn =>
        t'.console.session.stack = t.console.session.stack ∧
        t'.console.session.vars = t.console.session.vars ∧
        ∀ e, t'.reply = .error e ↔ t.reply = .error e) ts ts' := by
  intro settings settings' console console' inputs
  have hrun : (console.turns 2 inputs >>= fun ts => .ok (ts.map Turn.failed)) =
      .ok [false, false, false, true, true, true, false] := by decide +kernel
  obtain ⟨ts, hts, hfailed⟩ := Outcome.bind_eq_ok_iff.mp hrun
  have htakes : console.Takes inputs ts := ⟨2, hts⟩
  have hf : settings'.features = settings.features := rfl
  have hv : settings'.vars = settings.vars := rfl
  have hs : console.session = .start Standard.dictionary settings := rfl
  have hs' : console'.session = .start Standard.dictionary settings' := rfl
  obtain ⟨hends, hagree⟩ := output_settings_keep_sessions hf hv hs hs' inputs
  obtain ⟨ts', htakes'⟩ := hends.mp ⟨ts, htakes⟩
  exact ⟨ts, ts', htakes, htakes', by simpa using hfailed, hagree ts ts' htakes htakes'⟩

end Console

end StackWords
