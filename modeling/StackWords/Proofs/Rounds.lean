import StackWords.Console.Dialogue
import StackWords.Proofs.Cutting
import StackWords.Proofs.History

/-! # Rounds of a dialogue

The replies of a dialogue fall into rounds, one behind the other. In a round lines
are joined until they make up a whole input, or until the input is given up, and
then nothing of its lines is left. So a dialogue is told by the inputs that its
rounds assemble: they are taken as by a console, and remembered, in their order.
-/
namespace StackWords.Console

theorem turn_trimmed (console : Console) (depth : Nat) (text : String) :
    console.turn depth (.line (Text.trimmed text)) = console.turn depth (.line text) := by
  have hread : Command.read (Text.trimmed text) = Command.read text := by
    simp only [Command.read, Text.trimmed, String.toList_ofList, Text.trim_trim]
  simp only [turn, respond, eval, hread]

theorem turns_append (console : Console) (depth : Nat) (first second : List Input) :
    console.turns depth (first ++ second) = console.turns depth first >>= fun ts =>
      (console.after ts).turns depth second >>= fun us => .ok (ts ++ us) := by
  induction first generalizing console with
  | nil =>
    simp only [List.nil_append, turns, Outcome.ok_bind, after]
    cases console.turns depth second <;> rfl
  | cons input first ih =>
    simp only [List.cons_append, turns, ih, bind_assoc, Outcome.pure_eq, Outcome.ok_bind, after]

theorem after_append (console : Console) (ts us : List Turn) :
    console.after (ts ++ us) = (console.after ts).after us := by
  induction ts generalizing console with
  | nil => rfl
  | cons t ts ih => exact ih t.console

namespace Dialogue

/-- None of the first lines make up a whole input. -/
def StaysOpen (lines : List String) : Prop :=
  ∀ n < lines.length, isWhole (",".intercalate (lines.take (n + 1))) = false

instance (lines : List String) : Decidable (StaysOpen lines) :=
  inferInstanceAs (Decidable (∀ n < lines.length, _ = false))

theorem StaysOpen.next {lines more : List String} {line : String}
    (h : StaysOpen (lines ++ line :: more)) :
    isWhole (",".intercalate (lines ++ [line])) = false := by
  have hopen := h lines.length (by simp)
  rwa [List.take_length_add_append, List.take_succ_cons, List.take_zero] at hopen

theorem StaysOpen.concat {lines : List String} {line : String} (h : StaysOpen lines)
    (hline : isWhole (",".intercalate (lines ++ [line])) = false) :
    StaysOpen (lines ++ [line]) := by
  intro n hn
  rw [List.length_append, List.length_singleton] at hn
  by_cases hlt : n < lines.length
  · rw [List.take_append_of_le_length (by omega)]
    exact h n hlt
  · have hall : (lines ++ [line]).length ≤ n + 1 := by
      simp only [List.length_append, List.length_singleton]
      omega
    rw [List.take_of_length_le hall]
    exact hline

/-- The replies of a round, and the input that is assembled in it, if one is. -/
inductive Round : List Reply → Option String → Prop where
  | whole {lines : List String} {last : String} (hopen : StaysOpen lines)
      (hwhole : isWhole (",".intercalate (lines ++ [last]))) :
    Round ((lines ++ [last]).map .line) (some (",".intercalate (lines ++ [last])))
  | interrupted {lines : List String} (hopen : StaysOpen lines) :
    Round (lines.map Reply.line ++ [Reply.interrupted]) none
  | unfinished {lines : List String} (hne : lines ≠ []) (hopen : StaysOpen lines) :
    Round (lines.map Reply.line ++ [Reply.endOfInput]) none

inductive Rounds : List Reply → List String → Prop where
  | nil : Rounds [] []
  | cons {round rest : List Reply} {input? : Option String} {inputs : List String} :
    Round round input? → Rounds rest inputs → Rounds (round ++ rest) (input?.toList ++ inputs)

theorem Rounds.append {front back : List Reply} {inputs more : List String}
    (hf : Rounds front inputs) (hb : Rounds back more) :
    Rounds (front ++ back) (inputs ++ more) := by
  induction hf with
  | nil => exact hb
  | cons hround _ ih =>
    rw [List.append_assoc, List.append_assoc]
    exact .cons hround ih

theorem Round.rounds {round : List Reply} {input? : Option String} (h : Round round input?) :
    Rounds round input?.toList := by
  have hone := Rounds.cons h .nil
  rwa [List.append_nil, List.append_nil] at hone

/-- Replies that end a dialogue before another input is assembled: the end of the input in front of
the first line, or no more replies. -/
inductive Closing : List Reply → Prop where
  | ended (rest : List Reply) : Closing (.endOfInput :: rest)
  | silent {lines : List String} (hopen : StaysOpen lines) : Closing (lines.map .line)

theorem exists_rounds_behind {lines : List String} (hopen : StaysOpen lines) {replies : List Reply}
    (hr : ∀ e, Reply.failed e ∉ replies) :
    ∃ front inputs tail, lines.map Reply.line ++ replies = front ++ tail ∧ Rounds front inputs ∧
      Closing tail := by
  have hnone : StaysOpen [] := fun n hn => absurd hn (Nat.not_lt_zero n)
  -- The lines are those of an input that is not yet whole.
  induction replies generalizing lines with
  | nil =>
    refine ⟨[], [], lines.map .line, ?_, .nil, .silent hopen⟩
    rw [List.append_nil, List.nil_append]
  | cons reply replies ih =>
    have hrest : ∀ e, Reply.failed e ∉ replies := fun e he => hr e (List.mem_cons_of_mem _ he)
    -- Behind a round no line is left over.
    have hround : ∀ {round : List Reply} {input? : Option String}, Round round input? →
        lines.map Reply.line ++ reply :: replies = round ++ replies →
        ∃ front inputs tail, lines.map Reply.line ++ reply :: replies = front ++ tail ∧
          Rounds front inputs ∧ Closing tail := by
      intro round input? hround heq
      obtain ⟨front, inputs, tail, hsplit, hfront, htail⟩ := ih hnone hrest
      refine ⟨round ++ front, input?.toList ++ inputs, tail, ?_, .cons hround hfront, htail⟩
      rw [List.append_assoc, ← hsplit, heq]
      rfl
    cases reply with
    | line text =>
      have hlines : lines.map Reply.line ++ .line text :: replies =
          (lines ++ [text]).map .line ++ replies := by
        simp
      cases hw : isWhole (",".intercalate (lines ++ [text])) with
      | true => exact hround (.whole hopen hw) hlines
      | false =>
        rw [hlines]
        exact ih (hopen.concat hw) hrest
    | interrupted => exact hround (.interrupted hopen) (by simp)
    | endOfInput =>
      by_cases hne : lines = []
      · subst hne
        exact ⟨[], [], _, rfl, .nil, .ended replies⟩
      · exact hround (.unfinished hne hopen) (by simp)
    | failed e => exact absurd List.mem_cons_self (hr e)

def goOn (o : Outcome (Dialogue × List Event)) (next : Dialogue → Outcome (Dialogue × List Event)) :
    Outcome (Dialogue × List Event) := do
  let (d, events) ← o
  if d.status = .reading then
    let (d, more) ← next d
    pure (d, events ++ more)
  else pure (d, events)

theorem goOn_congr {o : Outcome (Dialogue × List Event)}
    {f g : Dialogue → Outcome (Dialogue × List Event)}
    (h : ∀ d events, o = .ok (d, events) → d.status = .reading → f d = g d) :
    goOn o f = goOn o g := by
  cases o with
  | ok r =>
    obtain ⟨d, events⟩ := r
    by_cases hd : d.status = .reading
    · simp only [goOn, Outcome.ok_bind, hd, ↓reduceIte, h d events rfl hd]
    · simp only [goOn, Outcome.ok_bind, hd, ↓reduceIte]
  | error e => rfl
  | exhausted => rfl

theorem goOn_goOn (o : Outcome (Dialogue × List Event))
    (f g : Dialogue → Outcome (Dialogue × List Event)) :
    goOn (goOn o f) g = goOn o fun d => goOn (f d) g := by
  cases o with
  | error e => rfl
  | exhausted => rfl
  | ok r =>
    obtain ⟨d, events⟩ := r
    by_cases hd : d.status = .reading
    · simp only [goOn, Outcome.ok_bind, hd, ↓reduceIte, Outcome.pure_eq]
      cases f d with
      | error e => rfl
      | exhausted => rfl
      | ok r =>
        obtain ⟨d', more⟩ := r
        by_cases hd' : d'.status = .reading
        · simp only [Outcome.ok_bind, hd', ↓reduceIte]
          cases g d' with
          | ok r => simp
          | error e => rfl
          | exhausted => rfl
        · simp only [Outcome.ok_bind, hd', ↓reduceIte]
    · simp only [goOn, Outcome.ok_bind, hd, ↓reduceIte, Outcome.pure_eq]

/-- Takes replies as long as the dialogue goes on, and leaves it there. -/
def advance (d : Dialogue) (depth : Nat) : List Reply → Outcome (Dialogue × List Event)
  | [] => .ok (d, [])
  | reply :: replies => goOn (d.step depth reply) fun d => d.advance depth replies

theorem goOn_start {d : Dialogue} (hd : d.status = .reading)
    (next : Dialogue → Outcome (Dialogue × List Event)) : goOn (.ok (d, [])) next = next d := by
  simp only [goOn, Outcome.ok_bind, hd, ↓reduceIte, List.nil_append]
  cases next d <;> rfl

theorem advance_append {d : Dialogue} (hd : d.status = .reading) (depth : Nat)
    (front back : List Reply) :
    d.advance depth (front ++ back) =
      goOn (d.advance depth front) fun d => d.advance depth back := by
  induction front generalizing d with
  | nil => exact (goOn_start hd fun d => d.advance depth back).symm
  | cons reply front ih =>
    rw [List.cons_append, advance, advance, goOn_goOn]
    exact goOn_congr fun next _ _ hnext => ih hnext

/-- A dialogue may be held up to some reply first and then be gone on with. -/
theorem run_append {d : Dialogue} (hd : d.status = .reading) (depth : Nat)
    (front back : List Reply) :
    d.run depth (front ++ back) = goOn (d.advance depth front) fun d => d.run depth back := by
  induction front generalizing d with
  | nil => exact (goOn_start hd fun d => d.run depth back).symm
  | cons reply front ih =>
    rw [List.cons_append, advance, goOn_goOn]
    exact goOn_congr fun next _ _ hnext => ih hnext

theorem run_endOfInput {d : Dialogue} (hd : d.pending = none) (depth : Nat) (rest : List Reply) :
    d.run depth (.endOfInput :: rest) = d.step depth .endOfInput := by
  simp [run, step, answer, hd]

theorem finish_of_start {d : Dialogue} (hd : d.pending = none) (depth : Nat) :
    d.finish depth = d.step depth .endOfInput := by
  simp [finish, step, answer, hd]

theorem pending_of_step_endOfInput {d next : Dialogue} {depth : Nat} {events : List Event}
    (h : d.step depth .endOfInput = .ok (next, events)) (hnext : next.status = .reading) :
    next.pending = none := by
  cases hp : d.pending with
  | none =>
    simp only [step, answer, hp, Option.isSome_none, Bool.false_eq_true, ↓reduceIte,
      Outcome.pure_eq, Outcome.ok_bind] at h
    cases h
    cases hnext
  | some lines =>
    simp only [step, answer, hp, Option.isSome_some, ↓reduceIte, Outcome.pure_eq,
      Outcome.ok_bind] at h
    cases h
    rfl

/-- The end of the input may be met any number of times behind the last reply. -/
theorem run_replicate_endOfInput (d : Dialogue) (depth n : Nat) :
    d.run depth (List.replicate n Reply.endOfInput) = d.finish depth := by
  cases n with
  | zero => rfl
  | succ n =>
    -- An end inside an input gives the input up, and the next one is met in front of a line.
    change goOn (d.step depth .endOfInput)
        (fun d => d.run depth (List.replicate n Reply.endOfInput)) =
      goOn (d.step depth .endOfInput) fun d => d.step depth .endOfInput
    refine goOn_congr fun next events hstep hnext => ?_
    have hpending := pending_of_step_endOfInput hstep hnext
    cases n with
    | zero => exact finish_of_start hpending depth
    | succ n => exact run_endOfInput hpending depth _

/-- A dialogue with the history in the place of the events. -/
def heard (o : Outcome (Dialogue × List Event)) : Outcome (Dialogue × List String) :=
  o >>= fun r => .ok (r.1, Event.remembered r.2)

theorem remembered_append (events more : List Event) :
    Event.remembered (events ++ more) = Event.remembered events ++ Event.remembered more :=
  List.filterMap_append

theorem heard_goOn (o : Outcome (Dialogue × List Event))
    (next : Dialogue → Outcome (Dialogue × List Event)) :
    heard (goOn o next) = heard o >>= fun r =>
      if r.1.status = .reading then heard (next r.1) >>= fun q => .ok (q.1, r.2 ++ q.2)
      else .ok r := by
  cases o with
  | error e => rfl
  | exhausted => rfl
  | ok r =>
    obtain ⟨d, events⟩ := r
    by_cases hd : d.status = .reading
    · simp only [goOn, heard, Outcome.ok_bind, hd, ↓reduceIte]
      cases next d with
      | ok r => simp only [Outcome.ok_bind, Outcome.pure_eq, remembered_append]
      | error e => rfl
      | exhausted => rfl
    · simp only [goOn, heard, Outcome.ok_bind, hd, ↓reduceIte, Outcome.pure_eq]

def pendingOf (lines : List String) : Option String :=
  if lines = [] then none else some (",".intercalate lines)

theorem joined_pendingOf (lines : List String) (line : String) :
    joined (pendingOf lines) line = ",".intercalate (lines ++ [line]) := by
  by_cases hne : lines = []
  · subst hne
    simp [pendingOf, joined]
  · have hlast : [line] ≠ [] := List.cons_ne_nil line []
    rw [String.intercalate_append_of_ne_nil hne hlast, String.intercalate_singleton]
    simp [pendingOf, joined, hne]

theorem pendingOf_concat (lines : List String) (line : String) :
    pendingOf (lines ++ [line]) = some (",".intercalate (lines ++ [line])) := by
  simp [pendingOf]

variable {console : Console} {depth : Nat}

theorem heard_advance_open {done lines : List String} (h : StaysOpen (done ++ lines)) :
    heard (advance { console, pending := pendingOf done } depth (lines.map .line)) =
      .ok ({ console, pending := pendingOf (done ++ lines) }, []) := by
  induction lines generalizing done with
  | nil =>
    rw [List.append_nil]
    rfl
  | cons line lines ih =>
    have hline : isWhole (joined (pendingOf done) line) = false := by
      rw [joined_pendingOf]
      exact h.next
    have hstep : heard (step { console, pending := pendingOf done } depth (.line line)) =
        .ok ({ console, pending := pendingOf (done ++ [line]) }, []) := by
      rw [pendingOf_concat, ← joined_pendingOf]
      simp [heard, step, answer, hline, Event.remembered]
    have hopen : StaysOpen (done ++ [line] ++ lines) := by
      rwa [List.append_assoc]
    rw [List.map_cons, advance, heard_goOn, hstep, Outcome.ok_bind, if_pos rfl, ih hopen,
      List.append_assoc]
    rfl

theorem heard_advance_lines {lines : List String} (hopen : StaysOpen lines) (console : Console)
    (depth : Nat) : heard (advance { console } depth (lines.map .line)) =
      .ok ({ console, pending := pendingOf lines }, []) := by
  have hbehind : StaysOpen ([] ++ lines) := hopen
  exact heard_advance_open hbehind

def spoken (inputs : List String) : List String :=
  inputs.filter fun input => Text.trim input.toList ≠ []

/-- A dialogue behind some inputs, with those in its history that are not blank. -/
def taken (console : Console) (depth : Nat) (inputs : List String) :
    Outcome (Dialogue × List String) :=
  console.turns depth ((spoken inputs).map .line) >>= fun ts =>
    .ok ({ console := console.after ts }, spoken inputs)

theorem remembered_lineOf (text : String) : Event.remembered (Event.lineOf text) = [] := by
  by_cases ht : text = "" <;> simp [Event.lineOf, Event.remembered, ht]

/-- A whole input is taken as by a console and goes into the history, unless it is blank. -/
theorem submit_taken (console : Console) (depth : Nat) (input : String) :
    (submit console depth input >>= fun r => .ok ({ console := r.1 }, Event.remembered r.2)) =
      taken console depth [input] := by
  by_cases hblank : Text.trim input.toList = []
  · have hspoken : spoken [input] = [] := by simp [spoken, hblank]
    simp only [submit, hblank, ↓reduceIte, Outcome.ok_bind, taken, hspoken, List.map_nil, turns,
      after, Event.remembered, List.filterMap_nil]
  · have hspoken : spoken [input] = [input] := by simp [spoken, hblank]
    simp only [submit, hblank, ↓reduceIte, turn_trimmed, taken, hspoken, List.map_cons,
      List.map_nil, turns, bind_assoc, Outcome.ok_bind, Outcome.pure_eq, after]
    cases console.turn depth (.line input) with
    | error e => rfl
    | exhausted => rfl
    | ok t =>
      obtain ⟨reply, next⟩ := t
      cases reply with
      | ok text =>
        have hline := remembered_lineOf text
        simp only [Event.remembered] at hline
        simp [Event.remembered, hline]
      | error e => rfl

theorem heard_step_whole {pending : Option String} {line : String}
    (h : isWhole (joined pending line)) :
    heard (step { console, pending } depth (.line line)) =
      taken console depth [joined pending line] := by
  rw [← submit_taken]
  simp only [heard, step, answer, h, ↓reduceIte]
  cases submit console depth (joined pending line) <;> rfl

theorem heard_step_interrupted (pending : Option String) :
    heard (step { console, pending } depth .interrupted) = .ok ({ console }, []) := by
  cases pending <;> rfl

theorem heard_step_unfinished (lines : String) :
    heard (step { console, pending := some lines } depth .endOfInput) = .ok ({ console }, []) := rfl

theorem goOn_stay (o : Outcome (Dialogue × List Event)) : goOn o (fun d => .ok (d, [])) = o := by
  cases o with
  | error e => rfl
  | exhausted => rfl
  | ok r =>
    obtain ⟨d, events⟩ := r
    by_cases hd : d.status = .reading
    · simp only [goOn, Outcome.ok_bind, hd, ↓reduceIte, Outcome.pure_eq, List.append_nil]
    · simp only [goOn, Outcome.ok_bind, hd, ↓reduceIte, Outcome.pure_eq]

theorem heard_advance_last {lines : List String} (hopen : StaysOpen lines) (last : Reply) :
    heard (advance { console } depth (lines.map Reply.line ++ [last])) =
      heard (step { console, pending := pendingOf lines } depth last) := by
  have hlines := heard_advance_lines hopen console depth
  have hlast : advance { console, pending := pendingOf lines } depth [last] =
      step { console, pending := pendingOf lines } depth last := goOn_stay _
  rw [advance_append rfl, heard_goOn, hlines, Outcome.ok_bind, if_pos rfl, hlast]
  cases heard (step { console, pending := pendingOf lines } depth last) <;> rfl

theorem taken_append (console : Console) (depth : Nat) (first second : List String) :
    taken console depth (first ++ second) = taken console depth first >>= fun r =>
      taken r.1.console depth second >>= fun q => .ok (q.1, r.2 ++ q.2) := by
  simp only [taken, spoken, List.filter_append, List.map_append, turns_append, bind_assoc,
    Outcome.ok_bind, after_append]

/-- A round takes the input that is assembled in it, and leaves nothing else behind. -/
theorem heard_advance_round {round : List Reply} {input? : Option String}
    (h : Round round input?) (console : Console) (depth : Nat) :
    heard (advance { console } depth round) = taken console depth input?.toList := by
  cases h with
  | @whole lines last hopen hwhole =>
    rw [← joined_pendingOf] at hwhole ⊢
    rw [List.map_append, List.map_singleton, heard_advance_last hopen, heard_step_whole hwhole]
    rfl
  | @interrupted lines hopen =>
    rw [heard_advance_last hopen, heard_step_interrupted]
    rfl
  | @unfinished lines hne hopen =>
    have hpending : pendingOf lines = some (",".intercalate lines) := if_neg hne
    rw [heard_advance_last hopen, hpending, heard_step_unfinished]
    rfl

theorem heard_goOn_taken {o : Outcome (Dialogue × List Event)} {inputs : List String}
    (h : heard o = taken console depth inputs)
    (next : Dialogue → Outcome (Dialogue × List Event)) :
    heard (goOn o next) = taken console depth inputs >>= fun r =>
      heard (next { console := r.1.console }) >>= fun q => .ok (q.1, r.2 ++ q.2) := by
  rw [heard_goOn, h, taken]
  simp only [bind_assoc, Outcome.ok_bind, ↓reduceIte]

/-- Rounds take the inputs that are assembled in them, one after the other. -/
theorem heard_advance_rounds {front : List Reply} {inputs : List String}
    (h : Rounds front inputs) (console : Console) (depth : Nat) :
    heard (advance { console } depth front) = taken console depth inputs := by
  induction h generalizing console with
  | nil => rfl
  | cons hround _ ih =>
    rw [advance_append rfl, heard_goOn_taken (heard_advance_round hround console depth),
      taken_append]
    simp only [ih]

theorem heard_run_rounds {front : List Reply} {inputs : List String} (h : Rounds front inputs)
    (console : Console) (depth : Nat) (rest : List Reply) :
    heard (run { console } depth (front ++ rest)) = taken console depth inputs >>= fun r =>
      heard (run { console := r.1.console } depth rest) >>= fun q => .ok (q.1, r.2 ++ q.2) := by
  rw [run_append rfl, heard_goOn_taken (heard_advance_rounds h console depth)]

theorem heard_run_closing {tail : List Reply} (h : Closing tail) (console : Console)
    (depth : Nat) :
    heard (run { console } depth tail) = .ok ({ console, status := .closed }, []) := by
  cases h with
  | ended rest =>
    rw [run_endOfInput rfl]
    rfl
  | @silent lines hopen =>
    have hlines := heard_advance_lines hopen console depth
    have hfinish : heard (run { console, pending := pendingOf lines } depth []) =
        .ok ({ console, status := .closed }, []) := by
      cases pendingOf lines <;> rfl
    rw [← List.append_nil (lines.map Reply.line), run_append rfl, heard_goOn, hlines,
      Outcome.ok_bind, if_pos rfl, hfinish]
    rfl

theorem heard_converse (console : Console) (depth : Nat) (replies : List Reply) :
    heard (console.converse depth replies) =
      heard (run { console := { console with styled := true } } depth replies) := by
  have hgreeting : Event.remembered (if console.settings.banner then [.print bannerText] else []) =
      [] := by
    split <;> rfl
  simp only [heard, converse, start, bind_assoc, Outcome.pure_eq, Outcome.ok_bind,
    remembered_append, hgreeting, List.nil_append]

/-- A dialogue over some replies ends: there is a limit on nesting at which it is closed, with a
session and a history. -/
def Ends (console : Console) (replies : List Reply) (session : Session) (history : List String) :
    Prop :=
  ∃ depth d events, console.converse depth replies = .ok (d, events) ∧ d.status = .closed ∧
    d.console.session = session ∧ Event.remembered events = history

theorem ends_iff {replies : List Reply} {session : Session} {history : List String} :
    Ends console replies session history ↔
      ∃ depth d, heard (run { console := { console with styled := true } } depth replies) =
        .ok (d, history) ∧ d.status = .closed ∧ d.console.session = session := by
  simp only [Ends, ← heard_converse]
  constructor
  · rintro ⟨depth, d, events, hrun, hclosed, hsession, rfl⟩
    exact ⟨depth, d, by rw [heard, hrun]; rfl, hclosed, hsession⟩
  · rintro ⟨depth, d, hheard, hclosed, hsession⟩
    obtain ⟨⟨d', events⟩, hrun, hok⟩ := Outcome.bind_eq_ok_iff.mp hheard
    cases hok
    exact ⟨depth, d', events, hrun, hclosed, hsession, rfl⟩

/-- Rounds that assemble the same inputs can stand for each other in front of any replies. -/
theorem ends_congr {front front' : List Reply} {inputs : List String} (h : Rounds front inputs)
    (h' : Rounds front' inputs) (console : Console) (rest : List Reply) (session : Session)
    (history : List String) :
    Ends console (front ++ rest) session history ↔
      Ends console (front' ++ rest) session history := by
  simp only [ends_iff, heard_run_rounds h, heard_run_rounds h']

theorem ends_rounds_iff {front tail : List Reply} {inputs : List String}
    (hfront : Rounds front inputs) (htail : Closing tail) (console : Console) (session : Session)
    (history : List String) :
    Ends console (front ++ tail) session history ↔ history = spoken inputs ∧
      ∃ ts, { console with styled := true }.Takes ((spoken inputs).map .line) ts ∧
        session = ({ console with styled := true }.after ts).session := by
  have hrun : ∀ depth, heard (run { console := { console with styled := true } } depth
      (front ++ tail)) = { console with styled := true }.turns depth
        ((spoken inputs).map .line) >>= fun ts => .ok
          ({ console := { console with styled := true }.after ts, status := .closed },
            spoken inputs) := by
    intro depth
    rw [heard_run_rounds hfront, taken]
    simp only [bind_assoc, Outcome.ok_bind, heard_run_closing htail, List.append_nil]
  simp only [ends_iff, hrun, Outcome.bind_eq_ok_iff]
  constructor
  · rintro ⟨depth, d, ⟨ts, hts, hok⟩, -, rfl⟩
    cases hok
    exact ⟨rfl, ts, ⟨depth, hts⟩, rfl⟩
  · rintro ⟨rfl, ts, ⟨depth, hts⟩, rfl⟩
    exact ⟨depth, _, ⟨ts, hts, rfl⟩, rfl, rfl⟩

theorem converse_congr {replies replies' : List Reply} {depth : Nat}
    (h : run { console := { console with styled := true } } depth replies =
      run { console := { console with styled := true } } depth replies') :
    console.converse depth replies = console.converse depth replies' := by
  simp only [converse, start, h]

/-- Behind the first end of the input that is met in front of a line no reply is asked for. -/
theorem converse_endOfInput {front : List Reply} {inputs : List String} (h : Rounds front inputs)
    (console : Console) (depth : Nat) (rest : List Reply) :
    console.converse depth (front ++ Reply.endOfInput :: rest) =
      console.converse depth (front ++ [Reply.endOfInput]) := by
  apply converse_congr
  rw [run_append rfl, run_append rfl]
  refine goOn_congr fun d events hadvance _ => ?_
  have hheard := heard_advance_rounds h { console with styled := true } depth
  rw [hadvance] at hheard
  obtain ⟨ts, -, hok⟩ := Outcome.bind_eq_ok_iff.mp hheard.symm
  obtain ⟨rfl, -⟩ := Prod.mk.inj (Outcome.ok.inj hok)
  rw [run_endOfInput rfl, run_endOfInput rfl]

theorem converse_replicate_endOfInput (console : Console) (depth : Nat) (replies : List Reply)
    (n : Nat) :
    console.converse depth (replies ++ List.replicate n Reply.endOfInput) =
      console.converse depth replies := by
  apply converse_congr
  let d : Dialogue := { console := { console with styled := true } }
  have hlast := run_append (show d.status = .reading from rfl) depth replies []
  rw [List.append_nil] at hlast
  rw [run_append rfl, hlast]
  exact goOn_congr fun d _ _ _ => d.run_replicate_endOfInput depth n

/-- A dialogue assembles its inputs from lines and loses, repeats and mixes up none of them. Every
script of replies without failures of the editor falls into rounds and a last part that ends the
dialogue. The dialogue ends as soon as the inputs of the rounds do: those that are not blank are
taken by the console in order, failing ones among them, and they are its history. Behind the first
end of the input in front of a line no reply matters, and behind the script the end may be met any
number of times. The lines of an input can be joined to one line, and lines that are given up can be
put in front of any round. -/
theorem dialogue_takes_assembled_inputs (console : Console) :
    (∀ replies, (∀ e, Reply.failed e ∉ replies) →
      ∃ front inputs tail, replies = front ++ tail ∧ Rounds front inputs ∧ Closing tail) ∧
    ∀ front inputs, Rounds front inputs →
      (∀ tail, Closing tail → ∀ session history,
        Ends console (front ++ tail) session history ↔ history = spoken inputs ∧
          ∃ ts, { console with styled := true }.Takes ((spoken inputs).map Input.line) ts ∧
            session = ({ console with styled := true }.after ts).session) ∧
      (∀ depth rest, console.converse depth (front ++ Reply.endOfInput :: rest) =
        console.converse depth (front ++ [Reply.endOfInput])) ∧
      (∀ depth replies n, console.converse depth (replies ++ List.replicate n Reply.endOfInput) =
        console.converse depth replies) ∧
      (∀ lines last, StaysOpen lines → isWhole (",".intercalate (lines ++ [last])) →
        ∀ rest session history,
          Ends console (front ++ ((lines ++ [last]).map Reply.line) ++ rest) session history ↔
            Ends console (front ++ [Reply.line (",".intercalate (lines ++ [last]))] ++ rest) session
              history) ∧
      ∀ lines, lines ≠ [] → StaysOpen lines → ∀ last ∈ [Reply.interrupted, Reply.endOfInput],
        ∀ rest session history,
          Ends console (front ++ (lines.map Reply.line ++ [last]) ++ rest) session history ↔
            Ends console (front ++ rest) session history := by
  have hnone : StaysOpen [] := fun n hn => absurd hn (Nat.not_lt_zero n)
  refine ⟨fun replies hr => exists_rounds_behind hnone hr, fun front inputs hfront => ⟨?_, ?_, ?_,
    ?_, ?_⟩⟩
  · exact fun tail htail => ends_rounds_iff hfront htail console
  · exact converse_endOfInput hfront console
  · exact converse_replicate_endOfInput console
  · intro lines last hopen hwhole rest
    have hlines := (Round.whole hopen hwhole).rounds
    have hline : Rounds [.line (",".intercalate (lines ++ [last]))]
        [",".intercalate (lines ++ [last])] := by
      have hsingle : isWhole (",".intercalate ([] ++ [",".intercalate (lines ++ [last])])) := by
        rwa [List.nil_append, String.intercalate_singleton]
      simpa using (Round.whole hnone hsingle).rounds
    exact ends_congr (hfront.append hlines) (hfront.append hline) console rest
  · intro lines hne hopen last hlast rest
    have hround : Round (lines.map Reply.line ++ [last]) none := by
      simp only [List.mem_cons, List.not_mem_nil, or_false] at hlast
      rcases hlast with rfl | rfl
      · exact .interrupted hopen
      · exact .unfinished hne hopen
    have hmore := hfront.append hround.rounds
    rw [Option.toList_none, List.append_nil] at hmore
    exact ends_congr hmore hfront console rest

/-- Two lines make up one input, two lines are given up at an end of the input, then follow a blank
line, a program that fails and a command that leaves a list open. A list that is open at the end is
lost. -/
theorem dialogue_of_broken_lines_takes_inputs :
    let console := Console.start Standard.dictionary {}
    let front : List Reply := [.line "a,(,b", .line "c,)", .line "x,[", .line "y", .endOfInput,
      .line " ", .line ":nope", .line ".debug (,d"]
    let inputs := ["a,(,b,c,)", " ", ":nope", ".debug (,d"]
    let history := ["a,(,b,c,)", ":nope", ".debug (,d"]
    let behind : List Reply := [.line ":drop", .interrupted, .line "e,(", .line "f"]
    Rounds front inputs ∧ ∃ session, session.stack = [.literal "a"] ∧
      Ends console (front ++ behind) session (history ++ [":drop"]) ∧
      Ends console (front ++ ([Reply.line "e,(", Reply.line "f"] ++ [Reply.interrupted]) ++ behind)
        session (history ++ [":drop"]) ∧
      Ends console ([Reply.line "a,(,b,c,)"] ++ (front.drop 2 ++ behind)) session
        (history ++ [":drop"]) := by
  intro console front inputs history behind
  have hfirst : Round [.line "a,(,b", .line "c,)"] (some "a,(,b,c,)") :=
    @Round.whole ["a,(,b"] "c,)" (by decide +kernel) (by decide +kernel)
  have hgiven : Round [.line "x,[", .line "y", .endOfInput] none :=
    @Round.unfinished ["x,[", "y"] (by decide) (by decide +kernel)
  have hblank : Round [.line " "] (some " ") := @Round.whole [] " " (by decide) (by decide +kernel)
  have hfailing : Round [.line ":nope"] (some ":nope") :=
    @Round.whole [] ":nope" (by decide) (by decide +kernel)
  have hcommand : Round [.line ".debug (,d"] (some ".debug (,d") :=
    @Round.whole [] ".debug (,d" (by decide) (by decide +kernel)
  have hdrop : Round [.line ":drop"] (some ":drop") :=
    @Round.whole [] ":drop" (by decide) (by decide +kernel)
  have hfront : Rounds front inputs :=
    .cons hfirst (.cons hgiven (.cons hblank (.cons hfailing hcommand.rounds)))
  have hopen : StaysOpen ["e,(", "f"] := by decide +kernel
  have hall : Rounds (front ++ [Reply.line ":drop", Reply.interrupted]) (inputs ++ [":drop"]) :=
    hfront.append (.cons hdrop (.cons (@Round.interrupted [] (by decide)) .nil))
  have hrun : ({ console with styled := true }.turns 2
      ((spoken (inputs ++ [":drop"])).map Input.line) >>= fun ts =>
        .ok ({ console with styled := true }.after ts).session.stack) = .ok [.literal "a"] := by
    decide +kernel
  obtain ⟨ts, hts, hstack⟩ := Outcome.bind_eq_ok_iff.mp hrun
  have hhistory : history ++ [":drop"] = spoken (inputs ++ [":drop"]) := by decide +kernel
  obtain ⟨-, hrounds⟩ := dialogue_takes_assembled_inputs console
  have hends : Ends console (front ++ behind) ({ console with styled := true }.after ts).session
      (history ++ [":drop"]) := by
    have hiff := (hrounds _ _ hall).1 _ (.silent hopen)
      ({ console with styled := true }.after ts).session (history ++ [":drop"])
    exact hiff.mpr ⟨hhistory, ts, ⟨2, hts⟩, rfl⟩
  refine ⟨hfront, _, Outcome.ok.inj hstack, hends, ?_, ?_⟩
  · have hgroup := (hrounds front inputs hfront).2.2.2.2 _ (by decide) hopen .interrupted
      (by decide)
    exact (hgroup behind _ _).mpr hends
  · have hjoin := (hrounds [] [] .nil).2.2.2.1 ["a,(,b"] "c,)" (by decide +kernel)
      (by decide +kernel) (front.drop 2 ++ behind)
    exact (hjoin _ _).mp hends

end Dialogue

end StackWords.Console
