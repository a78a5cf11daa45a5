import Ev3duder.Main.Link

namespace Ev3duder

open Data

/-! # Command lines that `main` turns down -/

/-- The usage text: the arguments that it has for each command.  It has none of `listen`, `send` and `nop`. -/
def UsageHas : Arg → List CString → Prop
  | .up, [_, _] | .dl, [_, _] | .rm, [_] | .ls, [] | .ls, [_] | .mkdir, [_] | .mkrbf, [_, _] | .run, [_] | .exec, [_]
  | .info, [] | .tunnel, [] | .bridge, [] | .closehnd, [_] | .vmexec, [_, _, _, _] => True
  | .vmexec, [_, _, _, _, word] => word.bytes = ascii "noreply"
  | .flash, [sub] => sub.bytes = ascii "enter" ∨ sub.bytes = ascii "info" ∨ sub.bytes = ascii "reboot"
  | .flash, [sub, _] => sub.bytes = ascii "install"
  | .uf2, [sub, _, _] => sub.bytes = ascii "unpack"
  | .uf2, sub :: _ :: _ :: file :: files =>
      sub.bytes = ascii "pack" ∨ (sub.bytes = ascii "unpack" ∧ files = [] ∧ file.bytes = ascii "--with-paths")
  | _, _ => False

/-- What `main` goes on with though the usage text does not have it: a default for what is missing, a word it leaves
unread or looks at later, `flash exit`, and commands that do not count their arguments. -/
def GoesBeyond : Arg → List CString → Prop
  | .dl, [_] | .closehnd, [] | .mkrbf, _ :: _ :: _ :: _ | .exec, _ :: _ :: _ | .vmexec, [_, _, _, _, _] => True
  | .flash, [sub] => sub.bytes = ascii "exit"
  | .info, _ | .tunnel, _ | .bridge, _ | .listen, _ | .send, _ | .wpa2, _ | .nop, _ | .end, _ => True
  | _, _ => False

/-- A branch that fails an assertion or only prints that it does not know a word. -/
def TurnsDown (branch : Proc Machine SwitchEnd) : Prop :=
  branch = assertFails ∨ ∃ text, branch = (do
    prints text
    return .breaks .arg)

section Misuse

variable {surroundings : Surroundings} {timeout : UInt32} {arg : Arg} {args : List CString}

theorem flashAlone_turnsDown (command : Command Err) {rest : List CString} (more : rest ≠ []) :
    TurnsDown (flashAlone command rest) := .inl (if_neg more)

theorem flashBranch_turnsDown (wrong : ¬ UsageHas .flash args) (late : ¬ GoesBeyond .flash args) :
    TurnsDown (flashBranch surroundings args) := by
  cases args with
  | nil => exact .inl rfl
  | cons sub rest =>
      have alone (same : sub.bytes = ascii "enter" ∨ sub.bytes = ascii "info" ∨ sub.bytes = ascii "exit") :
          rest ≠ [] := by
        rintro rfl
        rcases same with enter | info | exit
        · exact wrong (.inl enter)
        · exact wrong (.inr (.inl info))
        · exact late exit
      simp only [flashBranch]
      split
      · exact flashAlone_turnsDown _ (alone (.inl ‹_›))
      · split
        · rename_i install
          rcases rest with _ | ⟨_, _ | _⟩
          · exact .inl rfl
          · exact absurd install wrong
          · exact .inl rfl
        · split
          · exact flashAlone_turnsDown _ (alone (.inr (.inl ‹_›)))
          · split
            · exact flashAlone_turnsDown _ (alone (.inr (.inr ‹_›)))
            · exact .inr ⟨_, rfl⟩

theorem uf2Branch_turnsDown (wrong : ¬ UsageHas .uf2 args) : TurnsDown (uf2Branch surroundings args) := by
  cases args with
  | nil => exact .inl rfl
  | cons sub rest =>
      simp only [uf2Branch]
      split
      · rename_i pack
        rcases rest with _ | ⟨_, _ | ⟨_, _ | _⟩⟩
        · exact .inl rfl
        · exact .inl rfl
        · exact .inl rfl
        · exact absurd (.inl pack) wrong
      · split
        · rename_i unpack
          rcases rest with _ | ⟨_, _ | ⟨_, _ | ⟨paths, _ | _⟩⟩⟩
          · exact .inl rfl
          · exact .inl rfl
          · exact absurd unpack wrong
          · have other : paths.bytes ≠ ascii "--with-paths" := fun same => wrong (.inr ⟨unpack, rfl, same⟩)
            exact .inr ⟨_, if_neg other⟩
          · exact .inl rfl
        · exact .inr ⟨_, rfl⟩

/-- What the usage text does not have and `main` does not go on with ends where it is looked at. -/
theorem mainSwitch_turnsDown (wrong : ¬ UsageHas arg args) (late : ¬ GoesBeyond arg args)
    (named : ¬ (arg = .dl ∧ args = [])) : TurnsDown (mainSwitch surroundings timeout args arg) := by
  cases arg with
  | up | run | rm | mkdir | ls | mkrbf =>
      rcases args with _ | ⟨_, _ | ⟨_, _ | _⟩⟩ <;>
        first | exact .inl rfl | exact absurd trivial wrong | exact absurd trivial late
  | dl =>
      rcases args with _ | ⟨_, _ | ⟨_, _ | _⟩⟩
      · exact absurd ⟨rfl, rfl⟩ named
      · exact absurd trivial late
      · exact absurd trivial wrong
      · exact .inl rfl
  | closehnd =>
      rcases args with _ | ⟨first, _ | ⟨second, rest⟩⟩
      · exact absurd trivial late
      · exact absurd trivial wrong
      · have many : ¬ (first :: second :: rest).length ≤ 1 := by simp
        left
        show closehndBranch surroundings (first :: second :: rest) = _
        rw [closehndBranch, if_neg many]
  | exec =>
      rcases args with _ | ⟨_, _ | _⟩
      · exact .inl rfl
      · exact absurd trivial wrong
      · exact absurd trivial late
  | vmexec =>
      rcases args with _ | ⟨a, _ | ⟨b, _ | ⟨c, _ | ⟨d, _ | ⟨e, _ | ⟨f, rest⟩⟩⟩⟩⟩⟩
      · exact .inl rfl
      · exact .inl rfl
      · exact .inl rfl
      · exact .inl rfl
      · exact absurd trivial wrong
      · exact absurd trivial late
      · have many : ¬ (4 ≤ (a :: b :: c :: d :: e :: f :: rest).length ∧
            (a :: b :: c :: d :: e :: f :: rest).length ≤ 5) := by simp
        left
        show vmexecBranch surroundings (a :: b :: c :: d :: e :: f :: rest) = _
        rw [vmexecBranch, if_neg many]
  | flash => exact flashBranch_turnsDown wrong late
  | uf2 => exact uf2Branch_turnsDown wrong
  | info | tunnel | bridge | listen | send | wpa2 | nop | «end» => exact absurd (by simp [GoesBeyond]) late

end Misuse

section Stops

variable {surroundings : Surroundings} {argv args : List CString} {options : OptionState} {command : Bytes} {arg : Arg}
  {transport : Transport}

/-- A search without success is made of calls that found nothing. -/
theorem idle_calls {calls : List MainCall} (idle : linkState calls = some .idle) :
    ∀ call ∈ calls, ∃ transport firmware, call = .opens transport firmware false := by
  induction calls using List.reverseRecOn with
  | nil => nofun
  | append_singleton calls call ih =>
      rw [linkState_append] at idle
      obtain ⟨state, before, last⟩ := Option.bind_eq_some_iff.mp idle
      have step : LinkState.after state call = some .idle := by simpa using last
      have search : state = .idle ∧ ∃ transport firmware, call = .opens transport firmware false := by
        cases state <;> cases call <;> simp_all [LinkState.after]
      rw [search.1] at before
      intro other member
      rcases List.mem_append.mp member with early | late
      · exact ih before other early
      · rw [List.mem_singleton.mp late]
        exact search.2

/-- A command line without options. -/
theorem parsed_word (name command : CString) (args : List CString) (word : argKind command.bytes = .command)
    (plain : asksAbout (name :: command :: args) = false) :
    Parsed (name :: command :: args) (.started (name :: command :: args)) command.bytes ∧
      (OptionState.started (name :: command :: args)).args = args := by
  have position := started_at name (command :: args)
  refine ⟨⟨plain, mainOptions_command position word, position.argument 0⟩, ?_⟩
  have strings : (OptionState.started (name :: command :: args)).strings.drop 2 = args.map CString.bytes := rfl
  have same : ∀ arg : CString, cstr arg.bytes = arg := by
    intro arg
    rw [← cstr_nul, cstr_terminated]
  change ((OptionState.started (name :: command :: args)).strings.drop 2).map cstr = args
  rw [strings, List.map_map]
  exact (List.map_congr_left fun arg _ => same arg).trans (List.map_id args)

/-- A branch that turns its arguments down: nothing goes over the link, no file is touched, and the link is closed. -/
theorem turnsDown_leaves {branch : Proc Machine SwitchEnd} {machine : Machine} (down : TurnsDown branch)
    (link : HasLink transport machine) :
    ∃ after, (branch >>= leaveSwitch surroundings) machine = (some .arg, after) ∧ after.session = machine.session ∧
      after.calls = machine.calls ++ [.closes] := by
  rcases down with rfl | ⟨text, rfl⟩
  · exact ⟨{ machine with calls := machine.calls ++ [.closes] }, Proc.bind_returned (assertFails_run link), rfl, rfl⟩
  · let told : Machine := { machine with stdout := machine.stdout ++ text }
    obtain ⟨last, reported, handle, calls, session⟩ := @report_run surroundings .arg told
    have kept : HasLink transport last := ⟨handle.trans link.handle, by rw [calls]; exact link.state⟩
    refine ⟨{ last with calls := last.calls ++ [.closes] }, ?_, session, congrArg (· ++ _) calls⟩
    show leaveSwitch surroundings (.breaks .arg) told = _
    rw [leaveSwitch, Proc.bind_returned reported, Proc.bind_returned (closeLink_run kept)]
    rfl

end Stops

/-- No file can be opened, and the modes do nothing. -/
def bareSurroundings (opened : Opened) : Surroundings where
  opened
  files := ⟨{ rest := [] }, fun _ => none, fun _ => false⟩
  tmpfile := true
  linkError _ := none
  nullText := none
  overflow := none
  bridge := return .unk
  pack _ _ := return .unk
  unpack _ _ _ := return .unk

def programName : CString := ⟨ascii "ev3duder", by decide⟩

theorem starts_up_short : Starts (bareSurroundings ⟨true, false, false, false⟩)
    [programName, ⟨ascii "up", by decide⟩, ⟨ascii "a", by decide⟩] .up [⟨ascii "a", by decide⟩] .usb := by
  obtain ⟨parsed, args⟩ := parsed_word programName ⟨ascii "up", by decide⟩ [⟨ascii "a", by decide⟩] (by decide)
    (by decide)
  exact ⟨_, _, parsed, by decide, args, rfl⟩

end Ev3duder
