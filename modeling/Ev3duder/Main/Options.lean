import Ev3duder.Main.Numbers
import Ev3duder.Transport.Selection
import Ev3duder.Transport.Terminal

namespace Ev3duder

open Data

/-! # The options in front of the command

`argv` points into the vector that the process was started with.  Each option moves it on and takes the same from
`argc`, in statements of their own.
-/

structure Params where
  tcpId : Option Bytes := none
  serialId : Option Bytes × Option Bytes := (none, none)
  usbId : Option Bytes := none
  timeout : UInt32 := 0
deriving DecidableEq, Repr

structure OptionState where
  argc : Int
  /-- How far `argv` was moved. -/
  argv : Nat
  /-- The strings of the vector, as far as they still go. -/
  strings : List Bytes
  switches : Switches
  params : Params
  stderr : Bytes
  /-- `puts(usage); puts(usage_desc);` -/
  usage : Bool

def OptionState.started (args : List CString) : OptionState where
  argc := args.length
  argv := 0
  strings := args.map CString.bytes
  switches := ⟨false, false, false, false⟩
  params := {}
  stderr := []
  usage := false

inductive Argument where
  | text (bytes : Bytes)
  | null
  | outside
deriving DecidableEq, Repr

/-- `argv[index]`.  Behind the strings the vector has a null pointer and ends. -/
def OptionState.argument (state : OptionState) (index : Nat) : Argument :=
  match state.strings[state.argv + index]? with
  | some bytes => .text bytes
  | none => if state.argv + index = state.strings.length then .null else .outside

/-- `argc--, argv++` -/
def OptionState.shifted (state : OptionState) : OptionState :=
  { state with argc := state.argc - 1, argv := state.argv + 1 }

/-- `params.timeout = ..` -/
def OptionState.timed (timeout : UInt32) (state : OptionState) : OptionState :=
  { state with params := { state.params with timeout } }

/-- `strtok` ends the string of the option behind the name. -/
def OptionState.cut (name : Bytes) (state : OptionState) : OptionState :=
  { state with strings := state.strings.set (state.argv + 1) (45 :: 45 :: name) }

def OptionState.complained (message : String) (argument : Bytes) (state : OptionState) : OptionState :=
  { state with stderr := state.stderr ++ ascii message ++ argument ++ ascii "'\n" }

/-- How one pass of the loop ends. -/
inductive Flow where
  | goesOn | breaks
  | returns (err : Err)
deriving DecidableEq, Repr

/-- The string at `a` once `strtok` has ended the first token. -/
def switchName (a : Bytes) : Bytes :=
  let delimiters := a.takeWhile (· = 61)
  delimiters ++ (a.drop delimiters.length).takeWhile (· ≠ 61)

/-- The chain of comparisons with the names of switches. -/
def selectSwitch (name : Bytes) (device device2 : Option Bytes) (state : OptionState) : Option OptionState :=
  if name = ascii "usb" ∨ name = ascii "hid" then
    some { state with
      switches := { state.switches with select := true, hid := true }
      params := { state.params with usbId := device } }
  else if name = ascii "tcp" ∨ name = ascii "inet" then
    some { state with
      switches := { state.switches with select := true, tcp := true }
      params := { state.params with tcpId := device } }
  else if name = ascii "serial" ∨ name = ascii "bt" then
    some { state with
      switches := { state.switches with select := true, serial := true }
      params := { state.params with serialId := (device, device2) } }
  else if name = ascii "nop" then some state
  else none

/-- An option that begins with two dashes. -/
def longOption (text : Bytes) : Proc OptionState Flow := do
  let a := text.drop 2
  let (_, rest) := strtok a (ascii "=")
  let (device, rest) := strtok rest (ascii ",")
  let (device2, _) := strtok rest []
  let name := switchName a
  Proc.modify (OptionState.cut name)
  if name = [] then do
    Proc.modify OptionState.shifted
    return .breaks
  else
    match selectSwitch name device device2 (← Proc.gets id) with
    | some selected => do
        Proc.modify fun _ => selected.shifted
        return .goesOn
    | none => do
        Proc.modify (OptionState.complained "Invalid switch '" (45 :: 45 :: name))
        return .returns .arg

/-- `atoi`, as an `unsigned`. -/
def atoi (text : Bytes) : UInt32 := UInt32.ofInt (int32 (strtol text).1)

/-- An option that begins with `-t`. -/
def timeoutOption (text : Bytes) : Proc OptionState Flow := do
  if text.getD 2 0 = 61 then
    Proc.modify (OptionState.timed (atoi (text.drop 3)))
  else do
    match ← Proc.gets (OptionState.argument · 2) with
    | .text value => Proc.modify (OptionState.timed (atoi value))
    | _ => Proc.crash
    Proc.modify OptionState.shifted
  Proc.modify OptionState.shifted
  return .goesOn

def optionPass (text : Bytes) : Proc OptionState Flow := do
  if text.getD 1 0 = 45 then longOption text
  else if text.getD 1 0 = 116 then timeoutOption text
  else do
    Proc.modify (OptionState.complained "Invalid parameter '" text)
    return .returns .arg

section Passes

variable {text : Bytes} {state after : OptionState}

theorem longOption_run (text : Bytes) (state : OptionState) :
    longOption text state =
      if switchName (text.drop 2) = [] then
        (some .breaks, (state.cut (switchName (text.drop 2))).shifted)
      else
        match selectSwitch (switchName (text.drop 2)) (strtok (strtok (text.drop 2) (ascii "=")).2 (ascii ",")).1
          (strtok (strtok (strtok (text.drop 2) (ascii "=")).2 (ascii ",")).2 []).1
          (state.cut (switchName (text.drop 2))) with
        | some selected => (some .goesOn, selected.shifted)
        | none => (some (.returns .arg), (state.cut (switchName (text.drop 2))).complained "Invalid switch '"
            (45 :: 45 :: switchName (text.drop 2))) := by
  unfold longOption
  simp only [Proc.bind_apply, Proc.modify_apply]
  split
  · rfl
  · simp only [Proc.bind_apply, Proc.gets_apply, id]
    generalize selectSwitch _ _ _ _ = select
    cases select with
    | none => rfl
    | some selected => rfl

/-- The devices of a serial switch are kept as the parameters of `bt_open`. -/
theorem longOption_serial {devices : Option Bytes × Option Bytes}
    (serial : serialSwitch (text.drop 2) = some devices) :
    ∃ after, longOption text state = (some .goesOn, after) ∧ after.switches.serial = true ∧
      after.params.serialId = devices := by
  unfold serialSwitch at serial
  change (if switchName (text.drop 2) = ascii "serial" ∨ switchName (text.drop 2) = ascii "bt" then some _ else none) =
    some devices at serial
  by_cases named : switchName (text.drop 2) = ascii "serial" ∨ switchName (text.drop 2) = ascii "bt"
  · rw [if_pos named] at serial
    cases serial
    rw [longOption_run]
    rcases named with name | name
    all_goals
      rw [name]
      exact ⟨_, rfl, rfl, rfl⟩
  · rw [if_neg named] at serial
    nomatch serial

theorem timeoutOption_run (text : Bytes) (state : OptionState) :
    timeoutOption text state =
      if text.getD 2 0 = 61 then (some .goesOn, (state.timed (atoi (text.drop 3))).shifted)
      else
        match state.argument 2 with
        | .text value => (some .goesOn, (state.timed (atoi value)).shifted.shifted)
        | _ => (none, state) := by
  unfold timeoutOption
  by_cases equals : text.getD 2 0 = 61
  · rw [if_pos equals, if_pos equals]
    rfl
  · rw [if_neg equals, if_neg equals]
    simp only [Proc.bind_apply, Proc.gets_apply]
    cases state.argument 2 <;> rfl

theorem selectSwitch_keeps {name : Bytes} {device device2 : Option Bytes} {selected : OptionState}
    (select : selectSwitch name device device2 state = some selected) :
    selected.argc = state.argc ∧ selected.argv = state.argv ∧ selected.strings = state.strings := by
  unfold selectSwitch at select
  repeat'
    split at select
  all_goals
    cases select <;> exact ⟨rfl, rfl, rfl⟩

/-- A pass that goes on has moved `argv` forward in a vector of the same length. -/
theorem optionPass_moves (pass : optionPass text state = (some .goesOn, after)) :
    state.argv < after.argv ∧ after.strings.length = state.strings.length := by
  unfold optionPass at pass
  split at pass
  · rw [longOption_run] at pass
    split at pass
    · nomatch pass
    · split at pass
      next selected select =>
        cases pass
        obtain ⟨_, argv, strings⟩ := selectSwitch_keeps select
        simp [OptionState.shifted, argv, strings, OptionState.cut]
      next => nomatch pass
  · split at pass
    · rw [timeoutOption_run] at pass
      split at pass
      · cases pass
        simp [OptionState.shifted, OptionState.timed]
      · split at pass
        · cases pass
          simp [OptionState.shifted, OptionState.timed]
        · nomatch pass
    · nomatch pass

theorem argument_text {index : Nat} (argument : state.argument index = .text text) :
    state.strings[state.argv + index]? = some text := by
  unfold OptionState.argument at argument
  split at argument
  next bytes found =>
    cases argument
    exact found
  next =>
    split at argument
    · nomatch argument
    · nomatch argument

end Passes

/-- `while (argv[1] && *argv[1] == '-')`: `none` where `main` goes on behind the loop. -/
def optionLoop : Proc OptionState (Option Err) := fun state =>
  match _ : state.argument 1 with
  | .outside => (none, state)
  | .null => (some none, state)
  | .text text =>
      if text.getD 0 0 ≠ 45 then (some none, state)
      else
        match _ : optionPass text state with
        | (none, after) => (none, after)
        | (some .breaks, after) => (some none, after)
        | (some (.returns err), after) => (some (some err), after)
        | (some .goesOn, after) => optionLoop after
termination_by state => state.strings.length - state.argv
decreasing_by
  obtain ⟨forward, length⟩ := optionPass_moves ‹_›
  obtain ⟨inside, _⟩ := List.getElem?_eq_some_iff.mp (argument_text ‹_›)
  omega

/-- `main` from its option loop on to the command: what it returns there, if it returns. -/
def mainOptions : Proc OptionState (Option Err) := do
  match ← optionLoop with
  | some err => return some err
  | none =>
      if (← Proc.gets OptionState.argc) = 1 then do
        Proc.modify fun state => { state with usage := true }
        return some .arg
      else return none

inductive ArgKind where
  | command | last | long | timeout | takesNext | invalid
deriving DecidableEq, Repr

def longNames : List Bytes := ["usb", "hid", "tcp", "inet", "serial", "bt", "nop"].map ascii

def argKind (text : Bytes) : ArgKind :=
  if text.getD 0 0 ≠ 45 then .command
  else if text.getD 1 0 = 45 then
    if text.drop 2 = [] then .last
    else if switchName (text.drop 2) ∈ longNames then .long
    else .invalid
  else if text.getD 1 0 = 116 then
    if text.getD 2 0 = 61 then .timeout else .takesNext
  else .invalid

/-- What `--name`, `--name=value`, `--`, `-t=N` and `-t N` make up, as far as the command or the end. -/
inductive WellFormed : List Bytes → Prop where
  | none : WellFormed []
  | command (text : Bytes) (rest : List Bytes) (word : text.head? ≠ some 45) : WellFormed (text :: rest)
  | last (rest : List Bytes) : WellFormed (ascii "--" :: rest)
  | long (name value : Bytes) (rest : List Bytes) (known : name ∈ longNames)
      (given : value = [] ∨ value.head? = some 61) (more : WellFormed rest) :
      WellFormed ((ascii "--" ++ name ++ value) :: rest)
  | timeout (number : Bytes) (rest : List Bytes) (more : WellFormed rest) : WellFormed ((ascii "-t=" ++ number) :: rest)
  | takesNext (number : Bytes) (rest : List Bytes) (more : WellFormed rest) : WellFormed (ascii "-t" :: number :: rest)

/-- The arguments that are left behind some of the options. -/
inductive Comes : List Bytes → List Bytes → Prop where
  | here (left : List Bytes) : Comes left left
  | alone (text : Bytes) (rest left : List Bytes) (option : argKind text = .long ∨ argKind text = .timeout)
      (more : Comes rest left) : Comes (text :: rest) left
  | withNext (text value : Bytes) (rest left : List Bytes) (option : argKind text = .takesNext)
      (more : Comes rest left) : Comes (text :: value :: rest) left

def Refuses : List Bytes → Prop
  | [] => True
  | [text] => argKind text = .invalid ∨ argKind text = .last
  | text :: _ => argKind text = .invalid

def Accepts : List Bytes → Prop
  | [] => False
  | [text] => argKind text = .command
  | text :: _ => argKind text = .command ∨ argKind text = .last

/-- The last argument is an option that takes the one behind it. -/
def MissesNext (left : List Bytes) : Prop := ∃ text, left = [text] ∧ argKind text = .takesNext

/-- The options lead somewhere: each list comes to one of the three ends. -/
theorem comes_end (args : List Bytes) :
    ∃ left, Comes args left ∧ (Refuses left ∨ Accepts left ∨ MissesNext left) := by
  induction length : args.length using Nat.strong_induction_on generalizing args with
  | h length ih =>
      cases args with
      | nil => exact ⟨[], .here [], .inl trivial⟩
      | cons text rest =>
          cases kind : argKind text with
          | command =>
              refine ⟨text :: rest, .here _, .inr (.inl ?_)⟩
              cases rest <;> simp [Accepts, kind]
          | last =>
              refine ⟨text :: rest, .here _, ?_⟩
              cases rest <;> simp [Accepts, Refuses, kind]
          | invalid =>
              refine ⟨text :: rest, .here _, .inl ?_⟩
              cases rest <;> simp [Refuses, kind]
          | long | timeout =>
              obtain ⟨left, comes, ends⟩ := ih rest.length (by simp [← length]) rest rfl
              exact ⟨left, .alone text rest left (by simp [kind]) comes, ends⟩
          | takesNext =>
              cases rest with
              | nil => exact ⟨[text], .here _, .inr (.inr ⟨text, rfl, kind⟩)⟩
              | cons value rest =>
                  obtain ⟨left, comes, ends⟩ := ih rest.length (by simp [← length]) rest rfl
                  exact ⟨left, .withNext text value rest left kind comes, ends⟩

section Kinds

variable {text name value : Bytes}

theorem longNames_plain (known : name ∈ longNames) : name ≠ [] ∧ 61 ∉ name := by
  simp only [longNames, List.map_cons, List.map_nil, List.mem_cons, List.not_mem_nil, or_false] at known
  rcases known with rfl | rfl | rfl | rfl | rfl | rfl | rfl <;> decide

theorem switchName_empty {a : Bytes} (empty : switchName a = []) : a = [] := by
  cases a with
  | nil => rfl
  | cons first rest =>
      by_cases equals : first = 61
      · simp [switchName, equals] at empty
      · simp [switchName, equals] at empty

/-- A name without an equals sign is cut off behind itself. -/
theorem switchName_append (nonempty : name ≠ []) (plain : 61 ∉ name)
    (given : value = [] ∨ value.head? = some 61) :
    switchName (name ++ value) = name := by
  have char : ∀ char ∈ name, decide (char ≠ 61) = true := by
    intro char member
    exact decide_eq_true fun same => plain (same ▸ member)
  have stop : value.takeWhile (fun char => decide (char ≠ 61)) = [] := by
    rcases given with rfl | equals
    · rfl
    · obtain ⟨rest, rfl⟩ := List.head?_eq_some_iff.mp equals
      rfl
  obtain ⟨first, rest, rfl⟩ := List.exists_cons_of_ne_nil nonempty
  have start : first ≠ 61 := of_decide_eq_true (char first List.mem_cons_self)
  have delimiters : (first :: rest ++ value).takeWhile (fun char => decide (char = 61)) = [] := by
    simp [start]
  rw [switchName, delimiters, List.length_nil, List.drop_zero, List.nil_append, List.takeWhile_append_of_pos char, stop,
    List.append_nil]

theorem switchName_inversion {a : Bytes} (plain : 61 ∉ switchName a) :
    ∃ value, (value = [] ∨ value.head? = some 61) ∧ a = switchName a ++ value := by
  have delimiters : a.takeWhile (fun char => decide (char = 61)) = [] := by
    cases a with
    | nil => rfl
    | cons first rest =>
        by_cases equals : first = 61
        · exact absurd (by simp [switchName, equals]) plain
        · simp [equals]
  rw [switchName, delimiters, List.length_nil, List.drop_zero, List.nil_append]
  refine ⟨a.dropWhile (fun char => decide (char ≠ 61)), ?_, List.takeWhile_append_dropWhile.symm⟩
  cases rest : a.dropWhile (fun char => decide (char ≠ 61)) with
  | nil => exact .inl rfl
  | cons first more =>
      have stop := List.head?_dropWhile_not (fun char => decide (char ≠ 61)) a
      rw [rest] at stop
      simpa using stop

theorem argKind_word (word : text.head? ≠ some 45) : argKind text = .command := by
  cases text with
  | nil => rfl
  | cons first rest =>
      have other : first ≠ 45 := fun same => word (congrArg some same)
      exact if_pos other

theorem argKind_dashes (rest : Bytes) :
    argKind (ascii "--" ++ rest) =
      if rest = [] then .last else if switchName rest ∈ longNames then .long else .invalid := rfl

theorem argKind_dash_t (rest : Bytes) :
    argKind (ascii "-t" ++ rest) = if rest.getD 0 0 = 61 then .timeout else .takesNext := rfl

/-- What an argument of a kind looks like. -/
def ArgKind.Form : ArgKind → Bytes → Prop
  | .command, text => text.head? ≠ some 45
  | .last, text => text = ascii "--"
  | .long, text =>
      ∃ name ∈ longNames, ∃ value, (value = [] ∨ value.head? = some 61) ∧ text = ascii "--" ++ name ++ value
  | .timeout, text => ∃ number, text = ascii "-t=" ++ number
  | .takesNext, text => ∃ rest, text = ascii "-t" ++ rest ∧ rest.getD 0 0 ≠ 61
  | .invalid, _ => True

theorem argKind_cases (text : Bytes) :
    text.head? ≠ some 45 ∨ (∃ rest, text = ascii "--" ++ rest) ∨ (∃ rest, text = ascii "-t" ++ rest) ∨
      argKind text = .invalid := by
  match text with
  | [] => exact .inl nofun
  | [first] =>
      by_cases dash : first = 45
      · subst dash
        exact .inr (.inr (.inr rfl))
      · exact .inl fun same => dash (Option.some.inj same)
  | first :: second :: rest =>
      by_cases dash : first = 45
      · subst dash
        by_cases long : second = 45
        · subst long
          exact .inr (.inl ⟨rest, rfl⟩)
        · by_cases timeout : second = 116
          · subst timeout
            exact .inr (.inr (.inl ⟨rest, rfl⟩))
          · exact .inr (.inr (.inr (by simp [argKind, long, timeout])))
      · exact .inl fun same => dash (Option.some.inj same)

theorem argKind_form {kind : ArgKind} (same : argKind text = kind) : kind.Form text := by
  subst same
  rcases argKind_cases text with word | ⟨rest, rfl⟩ | ⟨rest, rfl⟩ | invalid
  · rw [argKind_word word]
    exact word
  · rw [argKind_dashes]
    split
    next empty =>
      rw [empty]
      rfl
    next =>
      split
      next known =>
        obtain ⟨value, given, same⟩ := switchName_inversion (longNames_plain known).2
        exact ⟨switchName rest, known, value, given, by rw [List.append_assoc, ← same]⟩
      next => trivial
  · rw [argKind_dash_t]
    split
    next equals =>
      cases rest with
      | nil => nomatch equals
      | cons first number =>
          change first = 61 at equals
          exact ⟨number, by rw [equals]; rfl⟩
    next other => exact ⟨rest, rfl, other⟩
  · rw [invalid]
    trivial

theorem command_word (command : argKind text = .command) : text.getD 0 0 ≠ 45 := by
  cases text with
  | nil => nofun
  | cons first rest => exact fun dash => argKind_form command (congrArg some dash)

theorem argKind_named (known : name ∈ longNames) (given : value = [] ∨ value.head? = some 61) :
    argKind (ascii "--" ++ name ++ value) = .long := by
  obtain ⟨nonempty, plain⟩ := longNames_plain known
  rw [List.append_assoc, argKind_dashes, if_neg (by simp [nonempty]), switchName_append nonempty plain given,
    if_pos known]

end Kinds

/-- `argv` stands in front of the arguments `left`, and `argc` has their number and one more. -/
structure At (state : OptionState) (left : List Bytes) : Prop where
  inside : state.argv < state.strings.length
  rest : state.strings.drop (state.argv + 1) = left
  count : state.argc = left.length + 1

section Positions

variable {state : OptionState} {text value : Bytes} {left : List Bytes}

theorem At.length (position : At state left) : state.argv + 1 + left.length = state.strings.length := by
  have rest := congrArg List.length position.rest
  have inside := position.inside
  rw [List.length_drop] at rest
  omega

theorem At.argument (position : At state left) (index : Nat) :
    state.argument (index + 1) =
      match left[index]? with
      | some text => .text text
      | none => if index = left.length then .null else .outside := by
  have length := position.length
  have found : state.strings[state.argv + (index + 1)]? = left[index]? := by
    rw [← position.rest, List.getElem?_drop]
    congr 1
    omega
  unfold OptionState.argument
  rw [found]
  cases left[index]? with
  | some text => rfl
  | none =>
      have same : state.argv + (index + 1) = state.strings.length ↔ index = left.length := by omega
      simp only [same]

/-- `argv[argc] == NULL` -/
theorem At.terminated (position : At state left) :
    0 ≤ state.argc ∧ state.argument state.argc.toNat = .null := by
  have count : state.argc.toNat = left.length + 1 := by
    have count := position.count
    omega
  constructor
  · have count := position.count
    omega
  · rw [count, position.argument, List.getElem?_eq_none (Nat.le_refl _)]
    exact if_pos rfl

theorem At.shifted (position : At state (text :: left)) : At state.shifted left where
  inside := by
    have length := position.length
    show state.argv + 1 < state.strings.length
    rw [List.length_cons] at length
    omega
  rest := by
    show state.strings.drop (state.argv + 1 + 1) = left
    rw [← List.drop_drop, position.rest]
    rfl
  count := by
    have count := position.count
    show state.argc - 1 = left.length + 1
    rw [List.length_cons] at count
    omega

theorem At.timed (position : At state left) (timeout : UInt32) : At (state.timed timeout) left :=
  ⟨position.inside, position.rest, position.count⟩

/-- `strtok` writes into the option itself and leaves what is behind it. -/
theorem At.cut (position : At state (text :: left)) (name : Bytes) :
    At (state.cut name) ((45 :: 45 :: name) :: left) where
  inside := by
    show state.argv < (state.strings.set (state.argv + 1) (45 :: 45 :: name)).length
    rw [List.length_set]
    exact position.inside
  rest := by
    show (state.strings.set (state.argv + 1) (45 :: 45 :: name)).drop (state.argv + 1) = _
    have rest := position.rest
    rw [List.drop_set]
    simp [rest]
  count := position.count

theorem At.selected {name : Bytes} {device device2 : Option Bytes} {selected : OptionState} (position : At state left)
    (select : selectSwitch name device device2 state = some selected) : At selected left := by
  obtain ⟨argc, argv, strings⟩ := selectSwitch_keeps select
  exact ⟨by rw [argv, strings]; exact position.inside, by rw [argv, strings]; exact position.rest,
    by rw [argc]; exact position.count⟩

theorem selectSwitch_known {name : Bytes} {device device2 : Option Bytes} :
    (∃ selected, selectSwitch name device device2 state = some selected) ↔ name ∈ longNames := by
  have names : name ∈ longNames ↔ (name = ascii "usb" ∨ name = ascii "hid") ∨
      (name = ascii "tcp" ∨ name = ascii "inet") ∨ (name = ascii "serial" ∨ name = ascii "bt") ∨
        name = ascii "nop" := by
    simp [longNames, or_assoc]
  rw [names]
  unfold selectSwitch
  repeat'
    split
  all_goals simp [*]

theorem selectSwitch_unknown {name : Bytes} {device device2 : Option Bytes} (unknown : name ∉ longNames) :
    selectSwitch name device device2 state = none := by
  cases select : selectSwitch name device device2 state with
  | none => rfl
  | some selected => exact absurd (selectSwitch_known.mp ⟨selected, select⟩) unknown

end Positions

section Passing

variable {state : OptionState} {text value : Bytes} {left : List Bytes}

theorem optionPass_last (position : At state (text :: left)) (last : argKind text = .last) :
    ∃ after, optionPass text state = (some .breaks, after) ∧ At after left := by
  have same : text = ascii "--" := argKind_form last
  subst same
  exact ⟨_, longOption_run (ascii "--") state, (position.cut []).shifted⟩

theorem optionPass_long (position : At state (text :: left)) (long : argKind text = .long) :
    ∃ after, optionPass text state = (some .goesOn, after) ∧ At after left := by
  obtain ⟨name, known, value, given, same⟩ := argKind_form long
  obtain ⟨nonempty, plain⟩ := longNames_plain known
  have name_eq : switchName (text.drop 2) = name := by
    rw [same, List.append_assoc]
    exact switchName_append nonempty plain given
  have pass : optionPass text state = longOption text state := by
    rw [same]
    rfl
  obtain ⟨selected, select⟩ := selectSwitch_known.mpr known
  rw [pass, longOption_run, name_eq, if_neg nonempty, select]
  exact ⟨_, rfl, ((position.cut name).selected select).shifted⟩

theorem optionPass_timeout (position : At state (text :: left)) (timeout : argKind text = .timeout) :
    ∃ after, optionPass text state = (some .goesOn, after) ∧ At after left := by
  obtain ⟨number, same⟩ := argKind_form timeout
  subst same
  exact ⟨_, timeoutOption_run (ascii "-t=" ++ number) state, (position.timed _).shifted⟩

theorem optionPass_takesNext (takes : argKind text = .takesNext) :
    optionPass text state =
      match state.argument 2 with
      | .text value => (some .goesOn, (state.timed (atoi value)).shifted.shifted)
      | _ => (none, state) := by
  obtain ⟨rest, same, other⟩ := argKind_form takes
  subst same
  exact (timeoutOption_run (ascii "-t" ++ rest) state).trans (if_neg other)

theorem optionPass_value (position : At state (text :: value :: left)) (takes : argKind text = .takesNext) :
    ∃ after, optionPass text state = (some .goesOn, after) ∧ At after left := by
  rw [optionPass_takesNext takes, position.argument 1]
  exact ⟨_, rfl, (position.timed _).shifted.shifted⟩

theorem optionPass_missing (position : At state [text]) (takes : argKind text = .takesNext) :
    optionPass text state = (none, state) := by
  rw [optionPass_takesNext takes, position.argument 1]
  rfl

theorem optionPass_invalid (invalid : argKind text = .invalid) :
    ∃ after, optionPass text state = (some (.returns .arg), after) := by
  unfold argKind at invalid
  unfold optionPass
  split at invalid
  · nomatch invalid
  · split at invalid
    next long =>
      rw [if_pos long, longOption_run]
      by_cases empty : text.drop 2 = []
      · nomatch (if_pos empty).symm.trans invalid
      · have unknown : switchName (text.drop 2) ∉ longNames := by
          intro known
          rw [if_neg empty, if_pos known] at invalid
          nomatch invalid
        rw [if_neg fun none => empty (switchName_empty none), selectSwitch_unknown unknown]
        exact ⟨_, rfl⟩
    next short =>
      rw [if_neg short]
      split at invalid
      · split at invalid <;> nomatch invalid
      next other =>
        rw [if_neg other]
        exact ⟨_, rfl⟩

end Passing

section Loop

variable {state after : OptionState} {text value : Bytes} {left : List Bytes} {args : List Bytes}

theorem optionLoop_option (position : At state (text :: left)) (option : argKind text ≠ .command) :
    optionLoop state =
      match optionPass text state with
      | (none, after) => (none, after)
      | (some .breaks, after) => (some none, after)
      | (some (.returns err), after) => (some (some err), after)
      | (some .goesOn, after) => optionLoop after := by
  have argument : state.argument 1 = .text text := position.argument 0
  have dash : text.getD 0 0 = 45 := of_not_not fun other => option (if_pos other)
  rw [optionLoop]
  split
  next outside => nomatch argument.symm.trans outside
  next null => nomatch argument.symm.trans null
  next other same =>
    cases argument.symm.trans same
    rw [if_neg (not_not_intro dash)]
    split
    all_goals
      next pass => rw [pass]

theorem optionLoop_command (position : At state (text :: left)) (command : argKind text = .command) :
    optionLoop state = (some none, state) := by
  have argument : state.argument 1 = .text text := position.argument 0
  rw [optionLoop]
  split
  next outside => nomatch argument.symm.trans outside
  next null => nomatch argument.symm.trans null
  next other same =>
    cases argument.symm.trans same
    exact if_pos (command_word command)

theorem optionLoop_end (position : At state []) : optionLoop state = (some none, state) := by
  have argument : state.argument 1 = .null := position.argument 0
  rw [optionLoop]
  split
  next outside => nomatch argument.symm.trans outside
  next null => rfl
  next other same => nomatch argument.symm.trans same

theorem mainOptions_run (state : OptionState) :
    mainOptions state =
      match optionLoop state with
      | (none, after) => (none, after)
      | (some (some err), after) => (some (some err), after)
      | (some none, after) =>
          if after.argc = 1 then (some (some .arg), { after with usage := true }) else (some none, after) := by
  unfold mainOptions
  rw [Proc.bind_apply]
  rcases optionLoop state with ⟨_ | _ | err, after⟩
  · rfl
  · simp only [Proc.bind_apply, Proc.gets_apply]
    split <;> rfl
  · rfl

/-- The options that are gone through leave the rest of the loop to do. -/
theorem optionLoop_comes (comes : Comes args left) (position : At state args) :
    ∃ reached, At reached left ∧ optionLoop state = optionLoop reached := by
  induction comes generalizing state with
  | here left => exact ⟨state, position, rfl⟩
  | alone text rest left option more ih =>
      have goesOn : ∃ after, optionPass text state = (some .goesOn, after) ∧ At after rest := by
        rcases option with long | timeout
        · exact optionPass_long position long
        · exact optionPass_timeout position timeout
      obtain ⟨after, pass, next⟩ := goesOn
      obtain ⟨reached, stands, same⟩ := ih next
      refine ⟨reached, stands, ?_⟩
      rw [optionLoop_option position (by rcases option with kind | kind <;> simp [kind]), pass]
      exact same
  | withNext text value rest left option more ih =>
      obtain ⟨after, pass, next⟩ := optionPass_value position option
      obtain ⟨reached, stands, same⟩ := ih next
      refine ⟨reached, stands, ?_⟩
      rw [optionLoop_option position (by simp [option]), pass]
      exact same

theorem mainOptions_comes (comes : Comes args left) (position : At state args) :
    ∃ reached, At reached left ∧ mainOptions state = mainOptions reached := by
  obtain ⟨reached, stands, same⟩ := optionLoop_comes comes position
  exact ⟨reached, stands, by rw [mainOptions_run, same, ← mainOptions_run]⟩

theorem mainOptions_end (position : At state []) :
    mainOptions state = (some (some .arg), { state with usage := true }) := by
  have count : state.argc = 1 := position.count
  rw [mainOptions_run, optionLoop_end position]
  exact if_pos count

theorem mainOptions_command (position : At state (text :: left)) (command : argKind text = .command) :
    mainOptions state = (some none, state) := by
  have count : state.argc ≠ 1 := by
    have count := position.count
    rw [List.length_cons] at count
    omega
  rw [mainOptions_run, optionLoop_command position command]
  exact if_neg count

theorem mainOptions_invalid (position : At state (text :: left)) (invalid : argKind text = .invalid) :
    ∃ after, mainOptions state = (some (some .arg), after) := by
  obtain ⟨after, pass⟩ := @optionPass_invalid state text invalid
  rw [mainOptions_run, optionLoop_option position (by simp [invalid]), pass]
  exact ⟨after, rfl⟩

/-- Behind `--` everything is a command, and there has to be one. -/
theorem mainOptions_last (position : At state (text :: left)) (last : argKind text = .last) :
    ∃ after, mainOptions state = (some (if left = [] then some .arg else none), after) := by
  obtain ⟨after, pass, next⟩ := optionPass_last position last
  rw [mainOptions_run, optionLoop_option position (by simp [last]), pass]
  cases left with
  | nil => exact ⟨{ after with usage := true }, if_pos next.count⟩
  | cons command rest =>
      have count : after.argc ≠ 1 := by
        have count := next.count
        rw [List.length_cons] at count
        omega
      exact ⟨after, if_neg count⟩

theorem mainOptions_refuses (position : At state left) (refuses : Refuses left) :
    ∃ after, mainOptions state = (some (some .arg), after) := by
  match left with
  | [] => exact ⟨_, mainOptions_end position⟩
  | [text] =>
      rcases refuses with invalid | last
      · exact mainOptions_invalid position invalid
      · exact mainOptions_last position last
  | text :: _ :: _ => exact mainOptions_invalid position refuses

theorem mainOptions_accepts (position : At state left) (accepts : Accepts left) :
    ∃ after, mainOptions state = (some none, after) := by
  match left with
  | [] => exact accepts.elim
  | [text] => exact ⟨state, mainOptions_command position accepts⟩
  | text :: _ :: _ =>
      rcases accepts with command | last
      · exact ⟨state, mainOptions_command position command⟩
      · exact mainOptions_last position last

theorem mainOptions_misses (position : At state left) (misses : MissesNext left) :
    (mainOptions state).1 = none := by
  obtain ⟨text, rfl, takes⟩ := misses
  rw [mainOptions_run, optionLoop_option position (by simp [takes]), optionPass_missing position takes]

theorem started_at (name : CString) (args : List CString) :
    At (OptionState.started (name :: args)) (args.map CString.bytes) where
  inside := by simp [OptionState.started]
  rest := rfl
  count := by simp [OptionState.started]

/-- A list of options is either refused, or gone through to the command, or its last argument asks for another one. -/
theorem mainOptions_ends (position : At state args) :
    ∃ left, Comes args left ∧
      ((Refuses left ∧ ∃ after, mainOptions state = (some (some .arg), after)) ∨
        (Accepts left ∧ ∃ after, mainOptions state = (some none, after)) ∨
        (MissesNext left ∧ (mainOptions state).1 = none)) := by
  obtain ⟨left, comes, ends⟩ := comes_end args
  obtain ⟨reached, stands, same⟩ := mainOptions_comes comes position
  refine ⟨left, comes, ?_⟩
  rw [same]
  rcases ends with refuses | accepts | misses
  · exact .inl ⟨refuses, mainOptions_refuses stands refuses⟩
  · exact .inr (.inl ⟨accepts, mainOptions_accepts stands accepts⟩)
  · exact .inr (.inr ⟨misses, mainOptions_misses stands misses⟩)

end Loop

section Forms

variable {args left rest : List Bytes} {text value : Bytes}

theorem WellFormed.alone (formed : WellFormed (text :: rest))
    (option : argKind text = .long ∨ argKind text = .timeout) :
    WellFormed rest := by
  cases formed with
  | command _ _ word => simp [argKind_word word] at option
  | last => rcases option with kind | kind <;> nomatch kind
  | long _ _ _ _ _ more => exact more
  | timeout _ _ more => exact more
  | takesNext _ _ _ => rcases option with kind | kind <;> nomatch kind

theorem WellFormed.withNext (formed : WellFormed (text :: rest)) (takes : argKind text = .takesNext) :
    text = ascii "-t" ∧ ∀ value left, rest = value :: left → WellFormed left := by
  cases formed with
  | command _ _ word => nomatch (argKind_word word).symm.trans takes
  | last => nomatch takes
  | long _ _ _ known given _ => nomatch (argKind_named known given).symm.trans takes
  | timeout _ _ _ => nomatch takes
  | takesNext _ left more =>
      refine ⟨rfl, fun value rest same => ?_⟩
      cases same
      exact more

/-- What is left of a list that is well formed is well formed. -/
theorem WellFormed.comes (formed : WellFormed args) (comes : Comes args left) : WellFormed left := by
  induction comes with
  | here => exact formed
  | alone _ _ _ option _ ih => exact ih (formed.alone option)
  | withNext _ value rest _ option _ ih => exact ih ((formed.withNext option).2 value rest rfl)

theorem Accepts.wellFormed (accepts : Accepts left) : WellFormed left := by
  match left with
  | [] => exact accepts.elim
  | [text] => exact .command text [] (argKind_form accepts)
  | text :: next :: rest =>
      rcases accepts with command | last
      · exact .command text (next :: rest) (argKind_form command)
      · rw [show text = ascii "--" from argKind_form last]
        exact .last (next :: rest)

/-- A list is well formed if it comes to the command and no option takes the argument behind it but `-t`. -/
theorem wellFormed_comes (comes : Comes args left) (accepts : Accepts left)
    (short : ∀ text rest, Comes args (text :: rest) → argKind text = .takesNext → text = ascii "-t") :
    WellFormed args := by
  induction comes with
  | here => exact accepts.wellFormed
  | alone text rest left option more ih =>
      have formed := ih accepts fun next rest comes => short next rest (.alone _ _ _ option comes)
      rcases option with long | timeout
      · obtain ⟨name, known, value, given, same⟩ := argKind_form long
        rw [same]
        exact .long name value rest known given formed
      · obtain ⟨number, same⟩ := argKind_form timeout
        rw [same]
        exact .timeout number rest formed
  | withNext text value rest left option more ih =>
      have formed := ih accepts fun next rest comes => short next rest (.withNext _ _ _ _ option comes)
      rw [short text (value :: rest) (.here _) option]
      exact .takesNext value rest formed

theorem exists_sloppy (comes : Comes args left) (accepts : Accepts left) (malformed : ¬ WellFormed args) :
    ∃ text rest, Comes args (text :: rest) ∧ argKind text = .takesNext ∧ text ≠ ascii "-t" := by
  refine Classical.byContradiction fun none =>
    malformed (wellFormed_comes comes accepts fun text rest passes takes => ?_)
  exact Decidable.byContradiction fun other => none ⟨text, rest, passes, takes, other⟩

end Forms

/-- The states in front of the loop and behind each option that does not end `main`, and whether the loop goes on
there. -/
inductive OptionsReached (args : List CString) : Flow → OptionState → Prop where
  | started : OptionsReached args .goesOn (.started args)
  | option (state after : OptionState) (text : Bytes) (flow : Flow) (reached : OptionsReached args .goesOn state)
      (argument : state.argument 1 = .text text) (dash : text.getD 0 0 = 45) (stays : flow = .goesOn ∨ flow = .breaks)
      (pass : optionPass text state = (some flow, after)) : OptionsReached args flow after

structure OptionsSafe (args : List CString) : Prop where
  /-- The loop ends, and the process does not die in it: no string function gets a null pointer. -/
  returns : ∃ result after, mainOptions (.started args) = (some result, after)
  /-- `argv[argc] == NULL` -/
  terminated : ∀ flow state, OptionsReached args flow state → 0 ≤ state.argc ∧ state.argument state.argc.toNat = .null
  refused : ¬ WellFormed (args.tail.map CString.bytes) →
    ∃ after, mainOptions (.started args) = (some (some .arg), after)

section Safety

variable {name : CString} {args : List CString} {state after : OptionState} {text : Bytes} {left : List Bytes}
  {flow : Flow}

/-- A pass ends in one way only. -/
theorem stands_after {other : Flow} {rest : List Bytes}
    (ends : ∃ next, optionPass text state = (some other, next) ∧ At next rest)
    (pass : optionPass text state = (some flow, after)) : At after rest := by
  obtain ⟨next, run, stands⟩ := ends
  cases run.symm.trans pass
  exact stands

/-- `argv` and `argc` stay together in each pass that does not end `main`. -/
theorem At.pass (position : At state left) (argument : state.argument 1 = .text text) (dash : text.getD 0 0 = 45)
    (stays : flow = .goesOn ∨ flow = .breaks) (pass : optionPass text state = (some flow, after)) :
    ∃ rest, At after rest := by
  have first := (position.argument 0).symm.trans argument
  cases left with
  | nil => nomatch first
  | cons other rest =>
      cases first
      cases kind : argKind text with
      | command => exact absurd dash (command_word kind)
      | last => exact ⟨rest, stands_after (optionPass_last position kind) pass⟩
      | long => exact ⟨rest, stands_after (optionPass_long position kind) pass⟩
      | timeout => exact ⟨rest, stands_after (optionPass_timeout position kind) pass⟩
      | takesNext =>
          cases rest with
          | nil => nomatch (optionPass_missing position kind).symm.trans pass
          | cons value rest => exact ⟨rest, stands_after (optionPass_value position kind) pass⟩
      | invalid =>
          obtain ⟨next, run⟩ := @optionPass_invalid state text kind
          cases run.symm.trans pass
          rcases stays with goesOn | breaks
          · nomatch goesOn
          · nomatch breaks

theorem optionsReached_at (reached : OptionsReached (name :: args) flow state) : ∃ left, At state left := by
  induction reached with
  | started => exact ⟨_, started_at name args⟩
  | option state after text flow reached argument dash stays pass ih =>
      obtain ⟨left, position⟩ := ih
      exact position.pass argument dash stays pass

theorem reached_terminated (flow : Flow) (state : OptionState) (reached : OptionsReached (name :: args) flow state) :
    0 ≤ state.argc ∧ state.argument state.argc.toNat = .null := by
  obtain ⟨left, position⟩ := optionsReached_at reached
  exact position.terminated

/-- Without a first argument the loop looks behind the end of the vector. -/
theorem mainOptions_empty : (mainOptions (.started [])).1 = none := by
  rw [mainOptions_run, optionLoop]
  rfl

/-- An option without the argument that it takes ends the process. -/
theorem returns_given (safe : OptionsSafe (name :: args)) (comes : Comes (args.map CString.bytes) left) :
    ¬ MissesNext left := by
  intro misses
  obtain ⟨result, after, run⟩ := safe.returns
  obtain ⟨reached, stands, same⟩ := mainOptions_comes comes (started_at name args)
  have died := mainOptions_misses stands misses
  rw [← same, run] at died
  nomatch died

/-- A list with an option that only begins with `-t` is malformed, so something in it has to be refused. -/
theorem refused_refuses (safe : OptionsSafe (name :: args)) {rest : List Bytes}
    (comes : Comes (args.map CString.bytes) (text :: rest)) (takes : argKind text = .takesNext)
    (other : text ≠ ascii "-t") : ∃ left, Comes (args.map CString.bytes) left ∧ Refuses left := by
  have malformed : ¬ WellFormed (args.map CString.bytes) := fun formed =>
    other ((formed.comes comes).withNext takes).1
  obtain ⟨after, run⟩ := safe.refused malformed
  obtain ⟨left, comes, ⟨refuses, _⟩ | ⟨_, after', run'⟩ | ⟨_, died⟩⟩ := mainOptions_ends (started_at name args)
  · exact ⟨left, comes, refuses⟩
  · nomatch run.symm.trans run'
  · rw [run] at died
    nomatch died

/-- The answer to a list with such an option is an error if something in it is refused. -/
theorem malformed_refused (comes : Comes (args.map CString.bytes) left) (accepts : Accepts left)
    (malformed : ¬ WellFormed (args.map CString.bytes))
    (refused : ∀ text rest, Comes (args.map CString.bytes) (text :: rest) → argKind text = .takesNext →
      text ≠ ascii "-t" → ∃ left, Comes (args.map CString.bytes) left ∧ Refuses left) :
    ∃ after, mainOptions (.started (name :: args)) = (some (some .arg), after) := by
  obtain ⟨text, rest, passes, takes, other⟩ := exists_sloppy comes accepts malformed
  obtain ⟨last, comes, refuses⟩ := refused text rest passes takes other
  obtain ⟨reached, stands, same⟩ := mainOptions_comes comes (started_at name args)
  rw [same]
  exact mainOptions_refuses stands refuses

end Safety

/-- Parsing is safe just where there is a first argument, no option is left without the argument it takes, and behind
each option that begins with `-t` but is no form of it there is one that is refused, or nothing. -/
theorem optionsSafe_iff (args : List CString) :
    OptionsSafe args ↔
      args ≠ [] ∧
      (∀ left, Comes (args.tail.map CString.bytes) left → ¬ MissesNext left) ∧
      (∀ text rest, Comes (args.tail.map CString.bytes) (text :: rest) → argKind text = .takesNext → text ≠ ascii "-t" →
        ∃ left, Comes (args.tail.map CString.bytes) left ∧ Refuses left) := by
  cases args with
  | nil =>
      constructor
      · intro safe
        obtain ⟨result, after, run⟩ := safe.returns
        have died := mainOptions_empty
        rw [run] at died
        nomatch died
      · exact fun condition => absurd rfl condition.1
  | cons name args =>
      constructor
      · intro safe
        exact ⟨List.cons_ne_nil name args, fun left comes => returns_given safe comes,
          fun text rest comes takes other => refused_refuses safe comes takes other⟩
      · intro ⟨_, given, refused⟩
        obtain ⟨left, comes, ⟨_, run⟩ | ⟨accepts, run⟩ | ⟨misses, _⟩⟩ := mainOptions_ends (started_at name args)
        · obtain ⟨after, same⟩ := run
          exact ⟨⟨_, after, same⟩, reached_terminated, fun _ => ⟨after, same⟩⟩
        · obtain ⟨after, same⟩ := run
          exact ⟨⟨_, after, same⟩, reached_terminated,
            fun malformed => malformed_refused comes accepts malformed refused⟩
        · exact absurd misses (given left comes)

/-- `ev3duder -t` -/
theorem optionsSafe_missing : ¬ OptionsSafe [⟨ascii "ev3duder", by decide⟩, ⟨ascii "-t", by decide⟩] := by
  intro safe
  obtain ⟨result, after, run⟩ := safe.returns
  have died := mainOptions_misses (started_at ⟨ascii "ev3duder", by decide⟩ [⟨ascii "-t", by decide⟩])
    ⟨ascii "-t", rfl, rfl⟩
  rw [run] at died
  nomatch died

end Ev3duder
