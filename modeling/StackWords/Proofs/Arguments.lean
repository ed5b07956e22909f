import Mathlib.Data.List.Forall2
import Mathlib.Data.List.Induction
import StackWords.CommandLine.Options

/-! # Command lines one behind the other

An option may take the argument behind it, whatever that looks like. Once this is
settled, every argument is read by itself, with the value it takes, so a command line
that can be read does not change how the arguments behind it are read.
-/
namespace StackWords.CommandLine

variable {argument : String} {first second arguments : List String}
variable {request : Request} {requests : List Request}

def valueOptions : List String := ["--features", "-e", "--eval", "--set"]

/-- The arguments that are not values of options, each with the value that it takes. -/
def withValues : List String → List (String × Option String)
  | [] => []
  | argument :: rest =>
    if argument ∈ valueOptions then
      match rest with
      | [] => [(argument, none)]
      | value :: rest => (argument, some value) :: withValues rest
    else (argument, none) :: withValues rest

theorem withValues_of_plain (h : argument ∉ valueOptions) (rest : List String) :
    withValues (argument :: rest) = (argument, none) :: withValues rest := by
  rw [withValues.eq_def]
  exact if_neg h

def valuesOf (option : String) (arguments : List String) : List String :=
  (withValues arguments).filterMap fun item => if item.1 = option then item.2 else none

def levelAsked (item : String × Option String) : Option (Except Error Features) :=
  if item.1 = "--unstable" then some (.ok .unstable)
  else if item.1 = "--features" then item.2.map Features.read
  else none

def Request.level? : Request → Option Features
  | .features level => some level
  | _ => none

def Request.assignment? : Request → Option (String × String)
  | .assign key value => some (key, value)
  | _ => none

/-- Reads an argument that stands by itself with the value that it takes. -/
def readItem (item : String × Option String) : Except Refusal Request :=
  match readArgument item.1 with
  | .error refusal => .error refusal
  | .ok (.inl request) => .ok request
  | .ok (.inr valued) =>
    match item.2 with
    | none => .error (.missingValue item.1)
    | some value => valued.read value

def Valued.options : Valued → List String
  | .features => ["--features"]
  | .program => ["-e", "--eval"]
  | .assign => ["--set"]

theorem readArgument_eq_inr_iff {valued : Valued} :
    readArgument argument = .ok (.inr valued) ↔ argument ∈ valued.options := by
  unfold readArgument
  split
  case h_14 =>
    split <;> cases valued <;> simp_all [Valued.options]
  all_goals
    cases valued <;> simp [Valued.options]

theorem mem_valueOptions_iff :
    argument ∈ valueOptions ↔ ∃ valued, readArgument argument = .ok (.inr valued) := by
  simp only [readArgument_eq_inr_iff]
  constructor
  · intro h
    simp only [valueOptions, List.mem_cons, List.not_mem_nil, or_false] at h
    rcases h with rfl | rfl | rfl | rfl
    · exact ⟨.features, List.mem_singleton_self _⟩
    · exact ⟨.program, List.mem_cons_self⟩
    · exact ⟨.program, List.mem_cons_of_mem _ (List.mem_singleton_self _)⟩
    · exact ⟨.assign, List.mem_singleton_self _⟩
  · rintro ⟨valued, h⟩
    cases valued with
    | features => simp_all [valueOptions, Valued.options]
    | program => rcases List.mem_pair.mp h with rfl | rfl <;> simp [valueOptions]
    | assign => simp_all [valueOptions, Valued.options]

theorem not_mem_options_of_readArgument (h : readArgument argument = .ok (.inl request))
    (valued : Valued) : argument ∉ valued.options := by
  rw [← readArgument_eq_inr_iff, h]
  simp

/-- Of the arguments that take no value, one sets a level and none makes an assignment. -/
theorem request_of_readArgument (h : readArgument argument = .ok (.inl request)) :
    request.level? = (if argument = "--unstable" then some .unstable else none) ∧
      request.assignment? = none := by
  unfold readArgument at h
  split at h
  case h_14 =>
    split at h
    · cases h
    · cases h
      simp_all [Request.level?, Request.assignment?]
  all_goals
    cases h <;> simp [Request.level?, Request.assignment?]

/-- Arguments are read one by one, each with its value. -/
theorem readRequests_eq_mapM (arguments : List String) :
    readRequests arguments = (withValues arguments).mapM readItem := by
  fun_induction withValues arguments with
  | case1 => rfl
  | case2 argument hvalued =>
    obtain ⟨valued, hread⟩ := mem_valueOptions_iff.mp hvalued
    rw [readRequests, hread, List.mapM_cons, readItem, hread]
    rfl
  | case3 argument hvalued value rest ih =>
    obtain ⟨valued, hread⟩ := mem_valueOptions_iff.mp hvalued
    rw [readRequests, hread, List.mapM_cons, readItem, hread, ← ih]
    dsimp only
    cases valued.read value with
    | error refusal => rfl
    | ok request => cases readRequests rest <;> rfl
  | case4 argument rest hother ih =>
    rw [readRequests, List.mapM_cons, readItem, ← ih]
    cases hread : readArgument argument with
    | error refusal => rfl
    | ok read =>
      cases read with
      | inl request => cases readRequests rest <;> rfl
      | inr valued => exact absurd (mem_valueOptions_iff.mpr ⟨valued, hread⟩) hother

theorem mapM_readItem_cons_eq_ok {item : String × Option String}
    {items : List (String × Option String)} :
    (item :: items).mapM readItem = .ok requests ↔
      ∃ request others, readItem item = .ok request ∧ items.mapM readItem = .ok others ∧
        requests = request :: others := by
  rw [List.mapM_cons]
  cases readItem item with
  | error refusal => simp [bind, Except.bind]
  | ok request =>
    cases items.mapM readItem with
    | error refusal => simp [bind, Except.bind]
    | ok others => simp [bind, Except.bind, pure, Except.pure, eq_comm]

theorem read_features_eq_ok {text : String} (h : Valued.features.read text = .ok request) :
    ∃ level, Features.read text = .ok level ∧ request = .features level := by
  rw [Valued.read] at h
  cases hlevel : Features.read text with
  | error e =>
    rw [hlevel] at h
    cases h
  | ok level =>
    rw [hlevel] at h
    cases h
    exact ⟨level, rfl, rfl⟩

/-- An assignment binds the text in front of the first `=` to the text behind it. -/
theorem read_assign_eq_ok {text : String} (h : Valued.assign.read text = .ok request) :
    ∃ key value, text = key ++ "=" ++ value ∧ '=' ∉ key.toList ∧ request = .assign key value := by
  rw [Valued.read] at h
  cases hcut : Text.cut? (· == '=') text.toList with
  | none =>
    rw [hcut] at h
    cases h
  | some parts =>
    obtain ⟨key, value⟩ := parts
    rw [hcut] at h
    cases h
    obtain ⟨c, hc, htext, hkey⟩ := Text.cut?_eq_some hcut
    obtain rfl : c = '=' := by simpa using hc
    refine ⟨String.ofList key, String.ofList value, ?_, ?_, rfl⟩
    · apply String.toList_injective
      simp [htext]
    · intro hmem
      simpa using hkey '=' (by simpa using hmem)

/-- What a request is read from. -/
theorem readItem_eq_ok {item : String × Option String} (h : readItem item = .ok request) :
    readArgument item.1 = .ok (.inl request) ∨
      (∃ text level, item = ("--features", some text) ∧ Features.read text = .ok level ∧
        request = .features level) ∨
      (∃ option text, item = (option, some text) ∧ (option = "-e" ∨ option = "--eval") ∧
        request = .program text) ∨
      ∃ key value, item = ("--set", some (key ++ "=" ++ value)) ∧ '=' ∉ key.toList ∧
        request = .assign key value := by
  obtain ⟨argument, value⟩ := item
  rw [readItem] at h
  dsimp only at h ⊢
  cases hread : readArgument argument with
  | error refusal =>
    rw [hread] at h
    cases h
  | ok read =>
    rw [hread] at h
    cases read with
    | inl plain =>
      cases h
      exact Or.inl rfl
    | inr valued =>
      cases value with
      | none => cases h
      | some text =>
        cases valued with
        | features =>
          obtain ⟨level, hlevel, rfl⟩ := read_features_eq_ok h
          obtain rfl := List.mem_singleton.mp (readArgument_eq_inr_iff.mp hread)
          exact Or.inr (Or.inl ⟨text, level, rfl, hlevel, rfl⟩)
        | program =>
          cases h
          have hoption := List.mem_pair.mp (readArgument_eq_inr_iff.mp hread)
          exact Or.inr (Or.inr (Or.inl ⟨argument, text, rfl, hoption, rfl⟩))
        | assign =>
          obtain ⟨key, value, rfl, hkey, rfl⟩ := read_assign_eq_ok h
          obtain rfl := List.mem_singleton.mp (readArgument_eq_inr_iff.mp hread)
          exact Or.inr (Or.inr (Or.inr ⟨key, value, rfl, hkey, rfl⟩))

/-- A request that is read sets the level that its item asks for. -/
theorem levelAsked_of_readItem {item : String × Option String} (h : readItem item = .ok request) :
    levelAsked item = request.level?.map .ok := by
  rcases readItem_eq_ok h with hread | ⟨text, level, rfl, hlevel, rfl⟩ |
    ⟨option, text, rfl, rfl | rfl, rfl⟩ | ⟨key, value, rfl, -, rfl⟩
  · have hne : item.1 ≠ "--features" := fun heq =>
      not_mem_options_of_readArgument hread .features (List.mem_singleton.mpr heq)
    rw [(request_of_readArgument hread).1, levelAsked, if_neg hne]
    split <;> rfl
  · simp [levelAsked, hlevel, Request.level?]
  · rfl
  · rfl
  · rfl

def assignmentText (entry : String × String) : String := entry.1 ++ "=" ++ entry.2

/-- A request that is read makes the assignment that its item is given. -/
theorem assignment_of_readItem {item : String × Option String}
    (h : readItem item = .ok request) :
    (if item.1 = "--set" then item.2 else none) = request.assignment?.map assignmentText ∧
      ∀ entry ∈ request.assignment?, '=' ∉ entry.1.toList := by
  rcases readItem_eq_ok h with hread | ⟨text, level, rfl, -, rfl⟩ |
    ⟨option, text, rfl, rfl | rfl, rfl⟩ | ⟨key, value, rfl, hkey, rfl⟩
  · have hne : item.1 ≠ "--set" := fun heq =>
      not_mem_options_of_readArgument hread .assign (List.mem_singleton.mpr heq)
    rw [(request_of_readArgument hread).2, if_neg hne]
    simp
  · simp [Request.assignment?]
  · simp [Request.assignment?]
  · simp [Request.assignment?]
  · simp [Request.assignment?, assignmentText, hkey]

/-- A command line that can be read does not end with an option that waits for its value. -/
theorem withValues_append (h : readRequests first = .ok requests) (second : List String) :
    withValues (first ++ second) = withValues first ++ withValues second := by
  rw [readRequests_eq_mapM] at h
  fun_induction withValues first generalizing requests with
  | case1 => rfl
  | case2 argument hvalued =>
    obtain ⟨request, -, hrequest, -, -⟩ := mapM_readItem_cons_eq_ok.mp h
    obtain ⟨valued, hread⟩ := mem_valueOptions_iff.mp hvalued
    rw [readItem, hread] at hrequest
    cases hrequest
  | case3 argument hvalued value rest ih =>
    obtain ⟨-, others, -, hothers, -⟩ := mapM_readItem_cons_eq_ok.mp h
    simp only [List.cons_append, withValues, if_pos hvalued, ih hothers]
  | case4 argument rest hother ih =>
    obtain ⟨-, others, -, hothers, -⟩ := mapM_readItem_cons_eq_ok.mp h
    rw [List.cons_append, withValues_of_plain hother, ih hothers]
    rfl

theorem readRequests_append (h : readRequests first = .ok requests) (second : List String) :
    readRequests (first ++ second) = (readRequests second).map (requests ++ ·) := by
  rw [readRequests_eq_mapM, withValues_append h, List.mapM_append, ← readRequests_eq_mapM,
    ← readRequests_eq_mapM, h]
  cases readRequests second <;> rfl

theorem forall₂_of_readRequests (h : readRequests arguments = .ok requests) :
    List.Forall₂ (fun item request => readItem item = .ok request)
      (withValues arguments) requests := by
  rw [readRequests_eq_mapM] at h
  generalize withValues arguments = items at h ⊢
  induction items generalizing requests with
  | nil =>
    cases h
    exact .nil
  | cons item items ih =>
    obtain ⟨request, others, hrequest, hothers, rfl⟩ := mapM_readItem_cons_eq_ok.mp h
    exact .cons hrequest (ih hothers)

/-- What the items of a command line tell, its requests tell in the same order. -/
theorem filterMap_eq_map_filterMap {α β : Type} {told : String × Option String → Option β}
    {tells : Request → Option α} {f : α → β}
    (hitem : ∀ item request, readItem item = .ok request → told item = (tells request).map f)
    {items : List (String × Option String)}
    (h : List.Forall₂ (fun item request => readItem item = .ok request) items requests) :
    items.filterMap told = (requests.filterMap tells).map f := by
  induction h with
  | nil => rfl
  | @cons item request items others hread _ ih =>
    rw [List.filterMap_cons, List.filterMap_cons, hitem item request hread, ih]
    cases tells request <;> rfl

theorem exists_readItem_of_mem {items : List (String × Option String)}
    (h : List.Forall₂ (fun item request => readItem item = .ok request) items requests)
    (hmem : request ∈ requests) : ∃ item, readItem item = .ok request := by
  induction h with
  | nil => cases hmem
  | @cons item head items others hread _ ih =>
    rcases List.mem_cons.mp hmem with rfl | hmem
    · exact ⟨item, hread⟩
    · exact ih hmem

namespace Options

/-- The options that two command lines ask for one behind the other, and the level that counts. -/
def followedBy (first second : Options) (level : Features) : Options where
  files := first.files ++ second.files
  programs := first.programs ++ second.programs
  batch := first.batch || second.batch
  showHelp := first.showHelp || second.showHelp
  showVersion := first.showVersion || second.showVersion
  features := level
  showSteps := first.showSteps || second.showSteps
  showTypes := first.showTypes || second.showTypes
  vars := first.vars ++ second.vars

/-- Requests add to options what they ask for by themselves, and the last level counts. -/
theorem foldl_add (o : Options) (requests : List Request) :
    requests.foldl add o = o.followedBy (requests.foldl add {})
      ((requests.filterMap Request.level?).getLast?.getD o.features) := by
  induction requests using List.reverseRecOn with
  | nil => simp [followedBy]
  | append_singleton requests request ih =>
    rw [List.foldl_append, List.foldl_append, ih]
    cases request <;> simp [add, followedBy, Request.level?]

theorem vars_foldl_add (requests : List Request) :
    (requests.foldl add {}).vars = requests.filterMap Request.assignment? := by
  induction requests using List.reverseRecOn with
  | nil => rfl
  | append_singleton requests request ih =>
    rw [List.foldl_append, List.filterMap_append, ← ih]
    cases request <;> simp [add, Request.assignment?]

theorem read_eq_ok_iff {o : Options} :
    Options.read arguments = .ok o ↔
      ∃ requests, readRequests arguments = .ok requests ∧ o = requests.foldl add {} := by
  rw [Options.read]
  cases readRequests arguments with
  | error refusal => simp [Except.map]
  | ok requests => simp [Except.map, eq_comm]

/-- The level is the one that the last item asks for that asks for one. -/
theorem features_of_read {o : Options} (h : Options.read arguments = .ok o) :
    ((withValues arguments).filterMap levelAsked).getLast?.getD (.ok .stable) =
      .ok o.features := by
  obtain ⟨requests, hrequests, rfl⟩ := read_eq_ok_iff.mp h
  have hlast := congrArg Options.features (foldl_add {} requests)
  have hlevels := filterMap_eq_map_filterMap (fun _ _ => levelAsked_of_readItem)
    (forall₂_of_readRequests hrequests)
  rw [hlevels, List.getLast?_map, hlast]
  cases (requests.filterMap Request.level?).getLast? <;> rfl

theorem vars_of_read {o : Options} (h : Options.read arguments = .ok o) :
    valuesOf "--set" arguments = o.vars.map assignmentText ∧
      ∀ entry ∈ o.vars, '=' ∉ entry.1.toList := by
  obtain ⟨requests, hrequests, rfl⟩ := read_eq_ok_iff.mp h
  have hread := forall₂_of_readRequests hrequests
  rw [vars_foldl_add]
  constructor
  · exact filterMap_eq_map_filterMap (fun _ _ hitem => (assignment_of_readItem hitem).1) hread
  · intro entry hmem
    obtain ⟨request, hrequest, hentry⟩ := List.mem_filterMap.mp hmem
    obtain ⟨item, hitem⟩ := exists_readItem_of_mem hread hrequest
    exact (assignment_of_readItem hitem).2 entry hentry

/-- A variable is bound to what its last assignment says. -/
theorem get?_settings_vars (o : Options) (key : String) :
    o.settings.vars.get? key = (o.vars.reverse.lookup key).map .literal := by
  rw [settings, Bindings.get?_ofList, ← List.map_reverse]
  exact Bindings.lookup_map_snd Value.literal o.vars.reverse key

end Options

/-- A command line that can be read leaves the arguments behind it as they are by themselves. What
both ask for adds up, and the level is what the last argument asks for that asks for one and is
not the value of an option. -/
theorem command_lines_compose {o₁ : Options} (hfirst : Options.read first = .ok o₁)
    (second : List String) :
    (∀ refusal, Options.read (first ++ second) = .error refusal ↔
      Options.read second = .error refusal) ∧
    ∀ o₂, Options.read second = .ok o₂ →
      ∃ o, Options.read (first ++ second) = .ok o ∧
        o.files = o₁.files ++ o₂.files ∧
        o.programs = o₁.programs ++ o₂.programs ∧
        o.vars = o₁.vars ++ o₂.vars ∧
        o.batch = (o₁.batch || o₂.batch) ∧
        o.showHelp = (o₁.showHelp || o₂.showHelp) ∧
        o.showVersion = (o₁.showVersion || o₂.showVersion) ∧
        o.showSteps = (o₁.showSteps || o₂.showSteps) ∧
        o.showTypes = (o₁.showTypes || o₂.showTypes) ∧
        ((withValues (first ++ second)).filterMap levelAsked).getLast?.getD (.ok .stable) =
          .ok o.features ∧
        valuesOf "--set" (first ++ second) = o.vars.map assignmentText ∧
        (∀ entry ∈ o.vars, '=' ∉ entry.1.toList) ∧
        ∀ key, o.settings.vars.get? key = (o.vars.reverse.lookup key).map Value.literal := by
  obtain ⟨requests, hrequests, rfl⟩ := Options.read_eq_ok_iff.mp hfirst
  have happend := readRequests_append hrequests second
  constructor
  · intro refusal
    rw [Options.read, Options.read, happend]
    cases readRequests second <;> simp [Except.map]
  · intro o₂ hsecond
    obtain ⟨others, hothers, rfl⟩ := Options.read_eq_ok_iff.mp hsecond
    rw [hothers] at happend
    have hread := Options.read_eq_ok_iff.mpr ⟨requests ++ others, happend, rfl⟩
    rw [List.foldl_append, Options.foldl_add] at hread
    obtain ⟨hvalues, hkeys⟩ := Options.vars_of_read hread
    exact ⟨_, hread, rfl, rfl, rfl, rfl, rfl, rfl, rfl, rfl, Options.features_of_read hread,
      hvalues, hkeys, Options.get?_settings_vars _⟩

/-- The level asked for in front stays, since behind it the option for the level is the program
of another option. -/
theorem option_taken_as_program_behind_level :
    Options.read ["--unstable", "--set", "step=1=2", "x.ps"] =
        .ok { features := .unstable, vars := [("step", "1=2")], files := ["x.ps"] } ∧
      Options.read ["-e", "--features", "stable", "--set", "step==3"] =
        .ok { programs := ["--features"], vars := [("step", "=3")], files := ["stable"] } ∧
      ∃ o, Options.read (["--unstable", "--set", "step=1=2", "x.ps"] ++
          ["-e", "--features", "stable", "--set", "step==3"]) = .ok o ∧
        o.files = ["x.ps", "stable"] ∧ o.programs = ["--features"] ∧ o.features = .unstable ∧
        o.settings.vars.get? "step" = some (.literal "=3") ∧
        o.settings.vars.get? "--features" = none := by
  have hfirst : Options.read ["--unstable", "--set", "step=1=2", "x.ps"] =
      .ok { features := .unstable, vars := [("step", "1=2")], files := ["x.ps"] } := rfl
  have hsecond : Options.read ["-e", "--features", "stable", "--set", "step==3"] =
      .ok { programs := ["--features"], vars := [("step", "=3")], files := ["stable"] } := rfl
  obtain ⟨o, hread, hfiles, hprograms, hvars, -, -, -, -, -, hlevel, -, -, hbound⟩ :=
    (command_lines_compose hfirst _).2 _ hsecond
  refine ⟨hfirst, hsecond, o, hread, hfiles, hprograms, (Except.ok.inj hlevel).symm, ?_, ?_⟩
  · rw [hbound, hvars]
    rfl
  · rw [hbound, hvars]
    rfl

end StackWords.CommandLine
