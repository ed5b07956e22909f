import StackWords.Console.Turn
import StackWords.Proofs.Tracing

/-! # Histories of a console

An input acts on a console through its session alone, and what it does there does
not depend on what the console shows. Inputs that fail and commands that only show
something leave the console as it was, so they can be struck from a history.
-/
namespace StackWords

/-- Running a program to the last step of its trace is running it. -/
theorem Session.adopt_trace (s : Session) (depth : Nat) (program : String) :
    (s.trace depth program >>= fun steps => .ok (s.adopt steps)) = s.execute depth program := by
  rw [trace, execute]
  cases Token.read program with
  | error e => rfl
  | ok tokens =>
    have hlast := s.dictionary.trace_getLast? depth tokens s.context
    simp only [Outcome.ofExcept, Outcome.ok_bind, Outcome.pure_eq]
    -- The session looks at the last step only, and this is where the run ends.
    calc (s.dictionary.trace depth tokens s.context >>= fun steps => .ok (s.adopt steps))
        = (s.dictionary.trace depth tokens s.context >>= fun steps => .ok steps.getLast?) >>=
            fun last => .ok ((last.map fun step => s.resume step.context).getD s) := by
          cases s.dictionary.trace depth tokens s.context <;> rfl
      _ = s.dictionary.run depth tokens s.context true >>= fun c => .ok (s.resume c) := by
          rw [hlast]
          cases s.dictionary.run depth tokens s.context true <;> rfl

theorem Session.execute_initial {s s' : Session} {depth : Nat} {program : String}
    (h : s.execute depth program = .ok s') : s'.initial = s.initial := by
  obtain ⟨_, -, h⟩ := Outcome.bind_eq_ok_iff.mp h
  obtain ⟨_, -, h⟩ := Outcome.bind_eq_ok_iff.mp h
  cases h
  rfl

namespace Console

/-- What a command does to a session. A trace leaves it, but fails where the program fails. -/
def Command.effect (s : Session) (depth : Nat) : Command → Outcome Session
  | .clear => .ok s.clear
  | .trace text => s.execute depth text >>= fun _ => .ok s
  | .program text => s.execute depth text
  | .showStack | .showVariables | .showWords | .help => .ok s

def Input.command? : Input → Option Command
  | .line text => some (.read text)
  | .file _ (.ok content) => some (.read (programOfFile content))
  | .file _ (.error _) => none

def Input.effect (s : Session) (depth : Nat) : Input → Outcome Session
  | .line text => (Command.read text).effect s depth
  | .file name (.ok content) =>
    ((Command.read (programOfFile content)).effect s depth).mapError (·.inSource name)
  | .file name (.error failure) => .error (Cause.unreadable name failure)

variable {console : Console} {depth : Nat} {input : Input} {t : Turn}

theorem runProgram_effect (console : Console) (depth : Nat) (text : String) :
    (console.runProgram depth text >>= fun r => .ok r.1) =
      console.session.execute depth text >>= fun session => .ok { console with session } := by
  rw [runProgram]
  split
  · rw [← Session.adopt_trace]
    cases console.session.trace depth text <;> rfl
  · cases console.session.execute depth text <;> rfl

theorem perform_effect (console : Console) (depth : Nat) (command : Command) :
    (console.perform depth command >>= fun r => .ok r.1) =
      command.effect console.session depth >>= fun session => .ok { console with session } := by
  cases command with
  | trace text =>
    rw [Command.effect, ← Session.adopt_trace, perform]
    cases console.session.trace depth text <;> rfl
  | program text => exact runProgram_effect console depth text
  | _ => rfl

/-- Behind an input the console is as before but for its session. -/
theorem respond_effect (console : Console) (depth : Nat) (input : Input) :
    (console.respond depth input >>= fun r => .ok r.1) =
      input.effect console.session depth >>= fun session => .ok { console with session } := by
  cases input with
  | line text => exact perform_effect console depth (.read text)
  | file name content =>
    cases content with
    | error failure => rfl
    | ok content =>
      rw [respond, evalFile, Input.effect, ← Outcome.mapError_bind_ok, ← Outcome.mapError_bind_ok,
        ← perform_effect]
      rfl

/-- What an input leads to is told by what it does to the session: it changes the session, it fails
and changes nothing, or it is stopped. -/
theorem turn_effect (console : Console) (depth : Nat) (input : Input) :
    (∃ text session, console.turn depth input = .ok ⟨.ok text, { console with session }⟩ ∧
      input.effect console.session depth = .ok session) ∨
    (∃ e, console.turn depth input = .ok ⟨.error e, console⟩ ∧
      input.effect console.session depth = .error e) ∨
    (console.turn depth input = .exhausted ∧
      input.effect console.session depth = .exhausted) := by
  have hrespond := respond_effect console depth input
  rw [turn]
  cases he : input.effect console.session depth with
  | ok session =>
    rw [he] at hrespond
    obtain ⟨⟨next, text⟩, hr, hok⟩ := Outcome.bind_eq_ok_iff.mp hrespond
    cases hok
    rw [hr]
    exact Or.inl ⟨text, session, rfl, rfl⟩
  | error e =>
    rw [he] at hrespond
    rw [Outcome.bind_ok_eq_error_iff.mp hrespond]
    exact Or.inr (Or.inl ⟨e, rfl, rfl⟩)
  | exhausted =>
    rw [he] at hrespond
    rw [Outcome.bind_ok_eq_exhausted_iff.mp hrespond]
    exact Or.inr (Or.inr ⟨rfl, rfl⟩)

theorem turn_cases (h : console.turn depth input = .ok t) :
    (∃ text session, t = ⟨.ok text, { console with session }⟩ ∧
      input.effect console.session depth = .ok session) ∨
    ∃ e, t = ⟨.error e, console⟩ := by
  rcases turn_effect console depth input with ⟨text, session, ht, he⟩ | ⟨e, ht, -⟩ | ⟨ht, -⟩
  · rw [ht] at h
    cases h
    exact Or.inl ⟨text, session, rfl, he⟩
  · rw [ht] at h
    cases h
    exact Or.inr ⟨e, rfl⟩
  · rw [ht] at h
    cases h

def Command.onlyShows : Command → Bool
  | .showStack | .showVariables | .showWords | .help | .trace _ => true
  | .clear | .program _ => false

def Input.onlyShows (input : Input) : Bool := input.command?.any Command.onlyShows

def Turn.error? (t : Turn) : Option Error :=
  match t.reply with
  | .ok _ => none
  | .error e => some e

def Turn.failed (t : Turn) : Bool := t.error?.isSome

theorem Command.effect_onlyShows {command : Command} (hc : command.onlyShows) {s s' : Session}
    (h : command.effect s depth = .ok s') : s' = s := by
  cases command with
  | clear => cases hc
  | program text => cases hc
  | trace text =>
    obtain ⟨_, -, hok⟩ := Outcome.bind_eq_ok_iff.mp h
    cases hok
    rfl
  | _ =>
    cases h
    rfl

theorem Input.effect_eq_ok {s s' : Session} (h : input.effect s depth = .ok s') :
    ∃ command, input.command? = some command ∧ command.effect s depth = .ok s' := by
  cases input with
  | line text => exact ⟨.read text, rfl, h⟩
  | file name content =>
    cases content with
    | error failure => cases h
    | ok content =>
      rw [Input.effect] at h
      exact ⟨.read (programOfFile content), rfl, Outcome.eq_ok_of_mapError h⟩

theorem Input.effect_onlyShows (hi : input.onlyShows) {s s' : Session}
    (h : input.effect s depth = .ok s') : s' = s := by
  obtain ⟨command, hc, he⟩ := Input.effect_eq_ok h
  rw [Input.onlyShows, hc] at hi
  exact Command.effect_onlyShows hi he

theorem turn_console_eq (h : console.turn depth input = .ok t)
    (hidle : t.failed ∨ input.onlyShows) : t.console = console := by
  rcases turn_cases h with ⟨text, session, rfl, he⟩ | ⟨e, rfl⟩
  · rcases hidle with hfailed | hshows
    · cases hfailed
    · rw [Input.effect_onlyShows hshows he]
  · rfl

theorem turns_cons_eq_ok_iff {inputs : List Input} {ts : List Turn} :
    console.turns depth (input :: inputs) = .ok ts ↔
      ∃ t later, console.turn depth input = .ok t ∧ t.console.turns depth inputs = .ok later ∧
        ts = t :: later := by
  simp only [turns, Outcome.bind_eq_ok_iff, Outcome.pure_eq, Outcome.ok.injEq]
  constructor
  · rintro ⟨t, ht, later, hlater, rfl⟩
    exact ⟨t, later, ht, hlater, rfl⟩
  · rintro ⟨t, later, ht, hlater, rfl⟩
    exact ⟨t, ht, later, hlater, rfl⟩

theorem length_turns {inputs : List Input} {ts : List Turn}
    (h : console.turns depth inputs = .ok ts) : ts.length = inputs.length := by
  induction inputs generalizing console ts with
  | nil =>
    cases h
    rfl
  | cons input inputs ih =>
    obtain ⟨t, later, -, hlater, rfl⟩ := turns_cons_eq_ok_iff.mp h
    rw [List.length_cons, List.length_cons, ih hlater]

def after (console : Console) : List Turn → Console
  | [] => console
  | t :: later => t.console.after later

/-- Inputs that failed or only showed something can be struck from a history: the others lead to
the same turns, and the console at the end is the same. -/
theorem turns_strike {keep : Input × Turn → Bool} {inputs : List Input} {ts : List Turn}
    (h : console.turns depth inputs = .ok ts)
    (hkeep : ∀ entry ∈ inputs.zip ts, keep entry = false → entry.2.failed ∨ entry.1.onlyShows) :
    console.turns depth (((inputs.zip ts).filter keep).map Prod.fst) =
        .ok (((inputs.zip ts).filter keep).map Prod.snd) ∧
      console.after (((inputs.zip ts).filter keep).map Prod.snd) = console.after ts := by
  induction inputs generalizing console ts with
  | nil =>
    cases h
    exact ⟨rfl, rfl⟩
  | cons input inputs ih =>
    obtain ⟨t, later, ht, hlater, rfl⟩ := turns_cons_eq_ok_iff.mp h
    rw [List.zip_cons_cons] at hkeep ⊢
    obtain ⟨hfirst, hrest⟩ := List.forall_mem_cons.mp hkeep
    obtain ⟨hturns, hafter⟩ := ih hlater hrest
    by_cases hk : keep (input, t)
    · rw [List.filter_cons_of_pos hk]
      exact ⟨turns_cons_eq_ok_iff.mpr ⟨t, _, ht, hturns, rfl⟩, hafter⟩
    · -- The input that is struck gave back the console it met, and the later ones start there.
      have hsame := turn_console_eq ht (hfirst (Bool.eq_false_iff.mpr hk))
      rw [hsame] at hturns hafter
      rw [List.filter_cons_of_neg hk, after, hsame]
      exact ⟨hturns, hafter⟩

theorem Command.effect_initial {command : Command} {s s' : Session}
    (h : command.effect s depth = .ok s') : s'.initial = s.initial := by
  cases command with
  | program text => exact Session.execute_initial h
  | trace text => rw [Command.effect_onlyShows rfl h]
  | _ =>
    cases h
    rfl

theorem turn_initial (h : console.turn depth input = .ok t) :
    t.console.session.initial = console.session.initial := by
  rcases turn_cases h with ⟨text, session, rfl, he⟩ | ⟨e, rfl⟩
  · obtain ⟨command, -, hc⟩ := Input.effect_eq_ok he
    exact Command.effect_initial hc
  · rfl

theorem turns_initial {inputs : List Input} {ts : List Turn}
    (h : console.turns depth inputs = .ok ts) :
    ∀ t ∈ ts, t.console.session.initial = console.session.initial := by
  induction inputs generalizing console ts with
  | nil =>
    cases h
    exact List.forall_mem_nil _
  | cons input inputs ih =>
    obtain ⟨t, later, ht, hlater, rfl⟩ := turns_cons_eq_ok_iff.mp h
    have hinitial := turn_initial ht
    refine List.forall_mem_cons.mpr ⟨hinitial, ?_⟩
    intro t' ht'
    exact (ih hlater t' ht').trans hinitial

theorem respond_clear (h : input.command? = some .clear) (console : Console) (depth : Nat) :
    console.respond depth input = .ok ({ console with session := console.session.clear }, "") := by
  cases input with
  | line text =>
    have hc : Command.read text = .clear := Option.some.inj h
    rw [respond, eval, hc]
    rfl
  | file name content =>
    cases content with
    | error failure => cases h
    | ok content =>
      have hc : Command.read (programOfFile content) = .clear := Option.some.inj h
      rw [respond, evalFile, eval, hc]
      rfl

theorem turns_clear {inputs : List Input} {ts : List Turn}
    (h : console.turns depth inputs = .ok ts) :
    ∀ entry ∈ inputs.zip ts, entry.1.command? = some .clear → entry.2.reply = .ok "" ∧
      entry.2.console.session.stack = [] ∧
      entry.2.console.session.vars = console.session.initial := by
  induction inputs generalizing console ts with
  | nil => exact List.forall_mem_nil _
  | cons input inputs ih =>
    obtain ⟨t, later, ht, hlater, rfl⟩ := turns_cons_eq_ok_iff.mp h
    have hinitial := turn_initial ht
    rw [List.zip_cons_cons]
    refine List.forall_mem_cons.mpr ⟨?_, ?_⟩
    · intro hc
      rw [turn, respond_clear hc] at ht
      cases ht
      exact ⟨rfl, rfl, rfl⟩
    · rw [← hinitial]
      exact ih hlater

/-- A console takes inputs in some turns: there is a limit on nesting that lets each of them end,
and this is what they lead to. -/
def Takes (console : Console) (inputs : List Input) (ts : List Turn) : Prop :=
  ∃ depth, console.turns depth inputs = .ok ts

/-- Failures and commands that only show something leave no trace: struck from a history, in part
or all, they change neither the replies to the other inputs nor the stack and the variables at the
end. Clearing empties the stack and gives the variables of the start back, whatever came before. -/
theorem failures_and_showing_leave_no_trace {dictionary : Dictionary} {settings : Settings}
    {console : Console} (hstart : console.session = .start dictionary settings)
    {inputs : List Input} {ts : List Turn} (h : console.Takes inputs ts) :
    ts.length = inputs.length ∧
    (∀ keep : Input × Turn → Bool,
      (∀ entry ∈ inputs.zip ts, keep entry = false → entry.2.failed ∨ entry.1.onlyShows) →
      let kept := (inputs.zip ts).filter keep
      console.Takes (kept.map Prod.fst) (kept.map Prod.snd) ∧
      (console.after (kept.map Prod.snd)).session.stack = (console.after ts).session.stack ∧
      (console.after (kept.map Prod.snd)).session.vars = (console.after ts).session.vars) ∧
    (∀ entry ∈ inputs.zip ts, entry.1.command? = some .clear → entry.2.reply = .ok "" ∧
      entry.2.console.session.stack = [] ∧ entry.2.console.session.vars = settings.vars) ∧
    ∀ t ∈ ts, t.console.session.clear.stack = [] ∧
      t.console.session.clear.vars = settings.vars := by
  obtain ⟨depth, h⟩ := h
  have hvars : console.session.initial = settings.vars := by rw [hstart]; rfl
  refine ⟨length_turns h, ?_, ?_, ?_⟩
  · intro keep hkeep
    obtain ⟨hturns, hafter⟩ := turns_strike h hkeep
    exact ⟨⟨depth, hturns⟩, by rw [hafter], by rw [hafter]⟩
  · rw [← hvars]
    exact turns_clear h
  · intro t ht
    exact ⟨rfl, (turns_initial h t ht).trans hvars⟩

theorem failing_lines_and_files_leave_no_trace :
    let settings : Settings := { vars := .ofList [("step", .literal "60")] }
    let console := Console.start Standard.dictionary settings
    let inputs : List Input := [.line "a,b", .line "c,:nope", .line ".stack",
      .file "missing" (.error .missing), .file "bound" (.ok "k,:dup\n:set,:freeze,d"),
      .line ".debug :swap", .line ".clear", .line "step,:get"]
    let keep := fun entry : Input × Turn => !(entry.2.failed || entry.1.onlyShows)
    ∃ ts, console.Takes inputs ts ∧
      ts.map Turn.failed = [false, true, false, true, false, false, false, false] ∧
      let kept := (inputs.zip ts).filter keep
      console.Takes (kept.map Prod.fst) (kept.map Prod.snd) ∧
      (console.after (kept.map Prod.snd)).session.stack = (console.after ts).session.stack ∧
      (console.after (kept.map Prod.snd)).session.vars = (console.after ts).session.vars := by
  intro settings console inputs keep
  have hrun : (console.turns 3 inputs >>= fun ts => .ok (ts.map Turn.failed)) =
      .ok [false, true, false, true, false, false, false, false] := by decide +kernel
  obtain ⟨ts, hts, hfailed⟩ := Outcome.bind_eq_ok_iff.mp hrun
  have htakes : console.Takes inputs ts := ⟨3, hts⟩
  have hstart : console.session = .start Standard.dictionary settings := rfl
  obtain ⟨-, hstrike, -, -⟩ := failures_and_showing_leave_no_trace hstart htakes
  refine ⟨ts, htakes, by simpa using hfailed, hstrike keep ?_⟩
  intro entry _ hk
  by_cases hf : entry.2.failed
  · exact Or.inl hf
  · exact Or.inr (by simpa [keep, hf] using hk)

end Console

end StackWords
