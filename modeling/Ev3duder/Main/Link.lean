import Ev3duder.Main.Switch

namespace Ev3duder

open Data

/-! # What `main` does with the link

A run looks for a brick, uses the link it found and closes it.  The states below say which call may follow which.
-/

inductive LinkState where
  | idle
  | linked (transport : Transport)
  | closed
deriving DecidableEq, Repr

/-- Packets and files need an open link, a search none, and a closed link is the end. -/
def LinkState.after : LinkState → MainCall → Option LinkState
  | .idle, .opens transport _ found => some (if found then .linked transport else .idle)
  | .linked transport, .transfers _ => some (.linked transport)
  | .linked transport, .opensFile _ _ => some (.linked transport)
  | .linked transport, .stores _ _ => some (.linked transport)
  | .linked _, .closes => some .closed
  | _, _ => none

def linkState (calls : List MainCall) : Option LinkState := calls.foldlM LinkState.after .idle

theorem linkState_append (calls more : List MainCall) :
    linkState (calls ++ more) = (linkState calls).bind fun state => more.foldlM LinkState.after state := by
  rw [linkState, List.foldlM_append]
  rfl

structure HasLink (transport : Transport) (machine : Machine) : Prop where
  handle : machine.handle = some transport
  state : linkState machine.calls = some (.linked transport)

/-- What leaves an open link open. -/
def KeepsLink (before after : Machine) : Prop := ∀ transport, HasLink transport before → HasLink transport after

section Steps

variable {transport : Transport} {machine : Machine} {surroundings : Surroundings}

theorem HasLink.calls {more : List MainCall} (linked : HasLink transport machine)
    (allowed : more.foldlM LinkState.after (.linked transport) = some (.linked transport)) :
    linkState (machine.calls ++ more) = some (.linked transport) := by
  rw [linkState_append, linked.state]
  exact allowed

theorem keepsLink_calledAll {calls : List MainCall} (allowed : ∀ transport,
    calls.foldlM LinkState.after (.linked transport) = some (.linked transport)) :
    Proc.Within KeepsLink (calledAll calls) :=
  fun _ transport linked => ⟨linked.handle, linked.calls (allowed transport)⟩

theorem keepsLink_called {call : MainCall} (allowed : ∀ transport,
    LinkState.after (.linked transport) call = some (.linked transport)) : Proc.Within KeepsLink (called call) := by
  refine keepsLink_calledAll fun transport => ?_
  rw [List.foldlM_cons, allowed]
  rfl

theorem keepsLink_prints (text : Bytes) : Proc.Within KeepsLink (prints text) :=
  fun _ _ linked => ⟨linked.handle, linked.state⟩

theorem keepsLink_showUsage : Proc.Within KeepsLink showUsage := fun _ _ linked => ⟨linked.handle, linked.state⟩

theorem keepsLink_errmsg (message : String) : Proc.Within KeepsLink (setMainErrmsg message) :=
  fun _ _ linked => ⟨linked.handle, linked.state⟩

theorem transfers_allowed (events : List Event) (transport : Transport) :
    (events.map MainCall.transfers).foldlM LinkState.after (.linked transport) = some (.linked transport) := by
  induction events with
  | nil => rfl
  | cons event events ih =>
      rw [List.map_cons, List.foldlM_cons]
      exact ih

theorem keepsLink_runs (command : Command Err) : Proc.Within KeepsLink (runs command) :=
  fun _ _ linked => ⟨linked.handle, linked.calls (transfers_allowed _ _)⟩

theorem overLink_run (command : Transport → Command Err) (linked : HasLink transport machine) :
    overLink command machine = runs (command transport) machine := by
  rw [overLink, linked.handle]

theorem keepsLink_overLink (command : Transport → Command Err) : Proc.Within KeepsLink (overLink command) := by
  intro machine transport linked
  rw [overLink_run command linked]
  exact keepsLink_runs _ machine transport linked

end Steps

/-- The arguments that the branches with a `return` in them leave there. -/
def EarlyReturn (surroundings : Surroundings) : Arg → List CString → Prop
  | .up, [loc, _] => surroundings.files.read loc = none
  | .dl, [rem] => surroundings.files.creates (lastName rem) = false
  | .dl, [_, loc] => surroundings.files.creates loc = false
  | .mkrbf, _ :: _ :: _ => True
  | .exec, _ :: _ => surroundings.tmpfile = false
  | .flash, [sub, loc] => sub.bytes = ascii "install" ∧ surroundings.files.read loc = none
  | .nop, _ => True
  | .end, _ => True
  | _, _ => False

/-- The number of arguments that the assertions of `flash` and `uf2` ask for. -/
def subcommandFits : Arg → List CString → Prop
  | _, [] => False
  | .flash, sub :: rest =>
      if sub.bytes = ascii "install" then rest.length = 1
      else if sub.bytes = ascii "enter" ∨ sub.bytes = ascii "info" ∨ sub.bytes = ascii "exit" then rest.length = 0
      else True
  | _, sub :: rest =>
      if sub.bytes = ascii "pack" then 3 ≤ rest.length
      else if sub.bytes = ascii "unpack" then rest.length = 2 ∨ rest.length = 3
      else True

/-- The assertions about `argc` hold, and the branch finds the arguments that it reads. -/
def AssertionsHold : Arg → List CString → Prop
  | .up, args => args.length = 2
  | .dl, args => 1 ≤ args.length ∧ args.length ≤ 2
  | .run, args => args.length = 1
  | .ls, args => args.length ≤ 1
  | .rm, args => args.length = 1
  | .mkdir, args => args.length = 1
  | .closehnd, args => args.length ≤ 1
  | .mkrbf, args => 2 ≤ args.length
  | .exec, args => 1 ≤ args.length
  | .vmexec, args => 4 ≤ args.length ∧ args.length ≤ 5
  | .flash, args => subcommandFits .flash args
  | .uf2, args => subcommandFits .uf2 args
  | _, _ => True

/-- The branch that is left says whether it was an early return, and whether the assertions held. -/
def SwitchLeaves (early fits : Prop) (transport : Transport) : SwitchEnd → Machine → Prop
  | .breaks _, after => fits ∧ ¬ early ∧ HasLink transport after
  | .returns _, after => fits ∧ early ∧ HasLink transport after
  | .exits err, after => ¬ fits ∧ err = .arg ∧ linkState after.calls = some .closed

section Branches

variable {transport : Transport} {machine : Machine} {surroundings : Surroundings} {early fits : Prop}

theorem breaksWith_leaves {branch : Proc Machine Err} (keeps : Proc.Within KeepsLink branch) (right : fits)
    (late : ¬ early) (link : HasLink transport machine) :
    Proc.Ends (breaksWith branch) machine (SwitchLeaves early fits transport) (HasLink transport) := by
  refine Proc.ends_bind (Proc.ends_of_after (keeps machine transport link)) ?_
  intro ret after kept
  exact ⟨right, late, kept⟩

theorem breaks_leaves {first : Proc Machine Unit} (err : Err) (keeps : Proc.Within KeepsLink first) (right : fits)
    (late : ¬ early) (link : HasLink transport machine) :
    Proc.Ends (first >>= fun _ => return .breaks err) machine (SwitchLeaves early fits transport)
      (HasLink transport) := by
  refine Proc.ends_bind (Proc.ends_of_after (keeps machine transport link)) ?_
  intro _ after kept
  exact ⟨right, late, kept⟩

theorem returns_leaves {first : Proc Machine Unit} (err : Err) (keeps : Proc.Within KeepsLink first) (right : fits)
    (soon : early) (link : HasLink transport machine) :
    Proc.Ends (first >>= fun _ => return .returns err) machine (SwitchLeaves early fits transport)
      (HasLink transport) := by
  refine Proc.ends_bind (Proc.ends_of_after (keeps machine transport link)) ?_
  intro _ after kept
  exact ⟨right, soon, kept⟩

theorem closeLink_run (link : HasLink transport machine) :
    closeLink machine = (some (), { machine with calls := machine.calls ++ [.closes] }) := by
  have found : machine.handle.isSome = true := by
    rw [link.handle]
    rfl
  unfold closeLink
  simp only [Proc.bind_apply, Proc.gets_apply, found, if_true]
  rfl

theorem assertFails_run (link : HasLink transport machine) :
    assertFails machine = (some (.exits .arg), { machine with calls := machine.calls ++ [.closes] }) :=
  Proc.bind_returned (closeLink_run link)

theorem HasLink.closed (link : HasLink transport machine) :
    linkState (machine.calls ++ [.closes]) = some .closed := by
  rw [linkState_append, link.state]
  rfl

theorem assertFails_leaves (wrong : ¬ fits) (link : HasLink transport machine) :
    Proc.Ends assertFails machine (SwitchLeaves early fits transport) (HasLink transport) := by
  rw [Proc.Ends, assertFails_run link]
  exact ⟨wrong, rfl, link.closed⟩

theorem fromFile_leaves (name : CString) (command : Command Err) (right : fits)
    (missing : early ↔ surroundings.files.read name = none) (link : HasLink transport machine) :
    Proc.Ends (fromFile surroundings name command) machine (SwitchLeaves early fits transport) (HasLink transport) := by
  have opened : Proc.Within KeepsLink (called (.opensFile name false)) := keepsLink_called fun _ => rfl
  refine Proc.ends_bind (Proc.ends_of_after (opened machine transport link)) ?_
  intro _ after kept
  cases found : surroundings.files.read name with
  | none => exact returns_leaves .io (keepsLink_prints _) right (missing.mpr found) kept
  | some file =>
      have late : ¬ early := fun soon => by
        rw [missing.mp soon] at found
        nomatch found
      exact breaksWith_leaves (keepsLink_overLink _) right late kept

theorem dlInto_leaves (rem loc : CString) (right : fits) (missing : early ↔ surroundings.files.creates loc = false)
    (link : HasLink transport machine) :
    Proc.Ends (dlInto surroundings rem loc) machine (SwitchLeaves early fits transport) (HasLink transport) := by
  have opened : Proc.Within KeepsLink (called (.opensFile loc true)) := keepsLink_called fun _ => rfl
  refine Proc.ends_bind (Proc.ends_of_after (opened machine transport link)) ?_
  intro _ after kept
  by_cases created : surroundings.files.creates loc = true
  · rw [if_pos created]
    have late : ¬ early := fun soon => by
      rw [missing.mp soon] at created
      nomatch created
    exact breaksWith_leaves (keepsLink_overLink _) right late kept
  · rw [if_neg created]
    exact returns_leaves .io (keepsLink_prints _) right (missing.mpr (Bool.not_eq_true _ ▸ created)) kept

theorem flashAlone_leaves (command : Command Err) {rest : List CString} (right : fits ↔ rest.length = 0)
    (late : ¬ early) (link : HasLink transport machine) :
    Proc.Ends (flashAlone command rest) machine (SwitchLeaves early fits transport) (HasLink transport) := by
  unfold flashAlone
  by_cases alone : rest = []
  · rw [if_pos alone]
    exact breaksWith_leaves (keepsLink_overLink _) (right.mpr (by rw [alone]; rfl)) late link
  · rw [if_neg alone]
    exact assertFails_leaves (fun fits => alone (List.eq_nil_of_length_eq_zero (right.mp fits))) link

theorem earlyReturn_flash (sub : CString) (rest : List CString) : EarlyReturn surroundings .flash (sub :: rest) ↔
    sub.bytes = ascii "install" ∧ ∃ loc, rest = [loc] ∧ surroundings.files.read loc = none := by
  match rest with
  | [] => exact iff_of_false id fun ⟨_, _, same, _⟩ => nomatch same
  | [loc] =>
      constructor
      · rintro ⟨install, missing⟩
        exact ⟨install, loc, rfl, missing⟩
      · rintro ⟨install, _, same, missing⟩
        cases same
        exact ⟨install, missing⟩
  | _ :: _ :: _ => exact iff_of_false id fun ⟨_, _, same, _⟩ => nomatch same

theorem flashInstall_leaves (rest : List CString) (right : fits ↔ rest.length = 1)
    (missing : early ↔ ∃ loc, rest = [loc] ∧ surroundings.files.read loc = none) (link : HasLink transport machine) :
    Proc.Ends (flashInstall surroundings rest) machine (SwitchLeaves early fits transport) (HasLink transport) := by
  match rest with
  | [] => exact assertFails_leaves (fun fits => nomatch right.mp fits) link
  | [loc] =>
      refine fromFile_leaves loc bootloaderInstall (right.mpr rfl) (missing.trans ?_) link
      constructor
      · rintro ⟨_, same, none⟩
        cases same
        exact none
      · intro none
        exact ⟨loc, rfl, none⟩
  | _ :: _ :: _ => exact assertFails_leaves (fun fits => nomatch right.mp fits) link

theorem flashBranch_leaves (args : List CString) (link : HasLink transport machine) :
    Proc.Ends (flashBranch surroundings args) machine
      (SwitchLeaves (EarlyReturn surroundings .flash args) (AssertionsHold .flash args) transport)
      (HasLink transport) := by
  cases args with
  | nil => exact assertFails_leaves (fun fits => fits) link
  | cons sub rest =>
      have early := @earlyReturn_flash surroundings sub rest
      unfold flashBranch
      simp only [AssertionsHold, subcommandFits]
      by_cases install : sub.bytes = ascii "install"
      · have other : ¬ sub.bytes = ascii "enter" := by
          rw [install]
          decide
        rw [if_neg other, if_pos install, if_pos install]
        exact flashInstall_leaves rest Iff.rfl (early.trans ⟨fun soon => soon.2, fun found => ⟨install, found⟩⟩) link
      · have late : ¬ EarlyReturn surroundings .flash (sub :: rest) := fun soon => install (early.mp soon).1
        rw [if_neg install, if_neg install]
        by_cases enter : sub.bytes = ascii "enter"
        · rw [if_pos enter, if_pos (Or.inl enter)]
          exact flashAlone_leaves _ Iff.rfl late link
        · rw [if_neg enter]
          by_cases info : sub.bytes = ascii "info"
          · rw [if_pos info, if_pos (Or.inr (Or.inl info))]
            exact flashAlone_leaves _ Iff.rfl late link
          · rw [if_neg info]
            by_cases exit : sub.bytes = ascii "exit"
            · rw [if_pos exit, if_pos (Or.inr (Or.inr exit))]
              exact flashAlone_leaves _ Iff.rfl late link
            · rw [if_neg exit, if_neg (not_or.mpr ⟨enter, not_or.mpr ⟨info, exit⟩⟩)]
              exact breaks_leaves .arg (keepsLink_prints _) trivial late link

theorem early_always {arg : Arg} (alone : arg = .nop ∨ arg = .end) (args : List CString) :
    EarlyReturn surroundings arg args := by
  rcases alone with rfl | rfl
  · rcases args with _ | ⟨_, _ | ⟨_, _ | _⟩⟩ <;> trivial
  · rcases args with _ | ⟨_, _ | ⟨_, _ | _⟩⟩ <;> trivial

/-- Most branches have no `return` in them. -/
theorem not_early {arg : Arg} (other : arg ∉ [.up, .dl, .mkrbf, .exec, .flash, .nop, .end]) (args : List CString) :
    ¬ EarlyReturn surroundings arg args := by
  intro early
  unfold EarlyReturn at early
  split at early
  all_goals
    first
    | exact early
    | exact other (by decide)

theorem uf2PackBranch_leaves (rest : List CString) (right : fits ↔ 3 ≤ rest.length) (late : ¬ early)
    (link : HasLink transport machine) : Proc.Ends (uf2PackBranch surroundings rest) machine
      (SwitchLeaves early fits transport) (HasLink transport) := by
  match rest with
  | archive :: brickdir :: file :: files =>
      have opened : Proc.Within KeepsLink (called (.opensFile archive true)) := keepsLink_called fun _ => rfl
      refine Proc.ends_bind (Proc.ends_of_after (opened machine transport link)) ?_
      intro _ after kept
      have enough : fits := right.mpr (by simp)
      by_cases created : surroundings.files.creates archive = true
      · rw [if_pos created]
        exact breaksWith_leaves (keepsLink_runs _) enough late kept
      · rw [if_neg created]
        exact breaks_leaves .io (keepsLink_errmsg _) enough late kept
  | [] => exact assertFails_leaves (fun fits => nomatch right.mp fits) link
  | [_] => exact assertFails_leaves (fun fits => by have := right.mp fits; simp at this) link
  | [_, _] => exact assertFails_leaves (fun fits => by have := right.mp fits; simp at this) link

theorem uf2UnpackFrom_leaves (archive outdir : CString) (usePaths : Bool) (right : fits) (late : ¬ early)
    (link : HasLink transport machine) : Proc.Ends (uf2UnpackFrom surroundings archive outdir usePaths) machine
      (SwitchLeaves early fits transport) (HasLink transport) := by
  have opened : Proc.Within KeepsLink (called (.opensFile archive false)) := keepsLink_called fun _ => rfl
  refine Proc.ends_bind (Proc.ends_of_after (opened machine transport link)) ?_
  intro _ after kept
  cases surroundings.files.read archive with
  | none => exact breaks_leaves .io (keepsLink_errmsg _) right late kept
  | some file => exact breaksWith_leaves (keepsLink_runs _) right late kept

theorem uf2UnpackBranch_leaves (rest : List CString) (right : fits ↔ rest.length = 2 ∨ rest.length = 3)
    (late : ¬ early) (link : HasLink transport machine) : Proc.Ends (uf2UnpackBranch surroundings rest) machine
      (SwitchLeaves early fits transport) (HasLink transport) := by
  match rest with
  | [archive, outdir] => exact uf2UnpackFrom_leaves archive outdir false (right.mpr (Or.inl rfl)) late link
  | [archive, outdir, paths] =>
      have enough : fits := right.mpr (Or.inr rfl)
      simp only [uf2UnpackBranch]
      by_cases known : paths.bytes = ascii "--with-paths"
      · rw [if_pos known]
        exact uf2UnpackFrom_leaves archive outdir true enough late link
      · rw [if_neg known]
        exact breaks_leaves .arg (keepsLink_prints _) enough late link
  | [] => exact assertFails_leaves (fun fits => by have := right.mp fits; simp at this) link
  | [_] => exact assertFails_leaves (fun fits => by have := right.mp fits; simp at this) link
  | _ :: _ :: _ :: _ :: _ => exact assertFails_leaves (fun fits => by have := right.mp fits; simp at this) link

theorem uf2Branch_leaves (args : List CString) (link : HasLink transport machine) :
    Proc.Ends (uf2Branch surroundings args) machine
      (SwitchLeaves (EarlyReturn surroundings .uf2 args) (AssertionsHold .uf2 args) transport) (HasLink transport) := by
  have late : ¬ EarlyReturn surroundings .uf2 args := not_early (by decide) args
  cases args with
  | nil => exact assertFails_leaves (fun fits => fits) link
  | cons sub rest =>
      unfold uf2Branch
      simp only [AssertionsHold, subcommandFits]
      by_cases pack : sub.bytes = ascii "pack"
      · rw [if_pos pack, if_pos pack]
        exact uf2PackBranch_leaves rest Iff.rfl late link
      · rw [if_neg pack, if_neg pack]
        by_cases unpack : sub.bytes = ascii "unpack"
        · rw [if_pos unpack, if_pos unpack]
          exact uf2UnpackBranch_leaves rest Iff.rfl late link
        · rw [if_neg unpack, if_neg unpack]
          exact breaks_leaves .arg (keepsLink_prints _) trivial late link

theorem oneBranch_leaves (command : Transport → CString → Command Err) (args : List CString)
    (right : fits ↔ args.length = 1) (late : ¬ early) (link : HasLink transport machine) :
    Proc.Ends (oneBranch command args) machine (SwitchLeaves early fits transport) (HasLink transport) := by
  match args with
  | [arg] => exact breaksWith_leaves (keepsLink_overLink _) (right.mpr rfl) late link
  | [] => exact assertFails_leaves (fun fits => nomatch right.mp fits) link
  | _ :: _ :: _ => exact assertFails_leaves (fun fits => nomatch right.mp fits) link

theorem dlBranch_leaves (args : List CString) (link : HasLink transport machine) :
    Proc.Ends (dlBranch surroundings args) machine
      (SwitchLeaves (EarlyReturn surroundings .dl args) (AssertionsHold .dl args) transport) (HasLink transport) := by
  match args with
  | [] => exact link
  | [rem] => exact dlInto_leaves rem (lastName rem) (by simp [AssertionsHold]) Iff.rfl link
  | [rem, loc] => exact dlInto_leaves rem loc (by simp [AssertionsHold]) Iff.rfl link
  | _ :: _ :: _ :: _ => exact assertFails_leaves (by simp [AssertionsHold]) link

theorem mkrbfBranch_leaves (args : List CString) (link : HasLink transport machine) :
    Proc.Ends (mkrbfBranch surroundings args) machine
      (SwitchLeaves (EarlyReturn surroundings .mkrbf args) (AssertionsHold .mkrbf args) transport)
      (HasLink transport) := by
  match args with
  | [] => exact assertFails_leaves (by simp [AssertionsHold]) link
  | [_] => exact assertFails_leaves (by simp [AssertionsHold]) link
  | cmd :: loc :: rest =>
      have opened : Proc.Within KeepsLink (called (.opensFile loc true)) := keepsLink_called fun _ => rfl
      have enough : AssertionsHold .mkrbf (cmd :: loc :: rest) := by simp [AssertionsHold]
      refine Proc.ends_bind (Proc.ends_of_after (opened machine transport link)) ?_
      intro _ after kept
      by_cases created : surroundings.files.creates loc = true
      · rw [if_pos created]
        cases made : mkrbf cmd with
        | none => exact kept
        | some rbf => exact returns_leaves .unk (keepsLink_called fun _ => rfl) enough trivial kept
      · rw [if_neg created]
        exact ⟨enough, trivial, kept⟩

theorem vmexecOpens_allowed (files : Files) (args : List CString) :
    (vmexecOpens files args).foldlM LinkState.after (.linked transport) = some (.linked transport) := by
  unfold vmexecOpens
  repeat'
    split
  all_goals rfl

theorem vmexecBranch_leaves (args : List CString) (link : HasLink transport machine) :
    Proc.Ends (vmexecBranch surroundings args) machine
      (SwitchLeaves (EarlyReturn surroundings .vmexec args) (AssertionsHold .vmexec args) transport)
      (HasLink transport) := by
  have late : ¬ EarlyReturn surroundings .vmexec args := not_early (by decide) args
  unfold vmexecBranch
  by_cases fits : 4 ≤ args.length ∧ args.length ≤ 5
  · rw [if_pos fits]
    have opened : Proc.Within KeepsLink (calledAll (vmexecOpens surroundings.files args)) :=
      keepsLink_calledAll fun _ => vmexecOpens_allowed surroundings.files args
    refine Proc.ends_bind (Proc.ends_of_after (opened machine transport link)) ?_
    intro _ after kept
    exact breaksWith_leaves (keepsLink_overLink _) fits late kept
  · rw [if_neg fits]
    exact assertFails_leaves fits link

theorem execBranch_leaves (timeout : UInt32) (args : List CString) (link : HasLink transport machine) :
    Proc.Ends (execBranch surroundings timeout args) machine
      (SwitchLeaves (EarlyReturn surroundings .exec args) (AssertionsHold .exec args) transport)
      (HasLink transport) := by
  match args with
  | [] => exact assertFails_leaves (by simp [AssertionsHold]) link
  | cmd :: rest =>
      have enough : AssertionsHold .exec (cmd :: rest) := by simp [AssertionsHold]
      have early : EarlyReturn surroundings .exec (cmd :: rest) ↔ surroundings.tmpfile = false := by
        cases rest <;> exact Iff.rfl
      simp only [execBranch]
      cases made : mkrbf (execCommand cmd) with
      | none => exact link
      | some rbf =>
          by_cases created : surroundings.tmpfile = true
          · simp only [created, if_true]
            have late : ¬ EarlyReturn surroundings .exec (cmd :: rest) := fun soon => by
              rw [early.mp soon] at created
              nomatch created
            exact breaksWith_leaves (keepsLink_overLink _) enough late link
          · simp only [created]
            exact ⟨enough, early.mpr (Bool.not_eq_true _ ▸ created), link⟩

theorem printsNamed_keeps (front : String) (args : List CString) (rest : String) :
    Proc.Within KeepsLink (printsNamed surroundings front args rest) := by
  unfold printsNamed
  repeat'
    split
  · exact keepsLink_prints _
  · exact keepsLink_prints _
  · exact fun _ _ link => link

/-- Whatever the command does: the `switch` is left with the link open, unless an assertion failed and closed it. -/
theorem mainSwitch_leaves (timeout : UInt32) (arg : Arg) (args : List CString) (link : HasLink transport machine) :
    Proc.Ends (mainSwitch surroundings timeout args arg) machine
      (SwitchLeaves (EarlyReturn surroundings arg args) (AssertionsHold arg args) transport) (HasLink transport) := by
  have always {arg : Arg} (command : Transport → Command Err) (fits : AssertionsHold arg args)
      (other : arg ∉ [.up, .dl, .mkrbf, .exec, .flash, .nop, .end]) :
      Proc.Ends (breaksWith (overLink command)) machine
        (SwitchLeaves (EarlyReturn surroundings arg args) (AssertionsHold arg args) transport) (HasLink transport) :=
    breaksWith_leaves (keepsLink_overLink _) fits (not_early other args) link
  cases arg with
  | info => exact always _ trivial (by decide)
  | up =>
      match args with
      | [loc, rem] => exact fromFile_leaves loc (up rem) rfl Iff.rfl link
      | [] => exact assertFails_leaves (by simp [AssertionsHold]) link
      | [_] => exact assertFails_leaves (by simp [AssertionsHold]) link
      | _ :: _ :: _ :: _ => exact assertFails_leaves (by simp [AssertionsHold]) link
  | dl => exact dlBranch_leaves args link
  | run => exact oneBranch_leaves _ args Iff.rfl (not_early (by decide) args) link
  | ls =>
      match args with
      | [] => exact breaksWith_leaves (keepsLink_overLink _) (by simp [AssertionsHold]) id link
      | [_] => exact breaksWith_leaves (keepsLink_overLink _) (by simp [AssertionsHold]) id link
      | _ :: _ :: _ => exact assertFails_leaves (by simp [AssertionsHold]) link
  | rm => exact oneBranch_leaves _ args Iff.rfl (not_early (by decide) args) link
  | mkdir => exact oneBranch_leaves _ args Iff.rfl (not_early (by decide) args) link
  | closehnd =>
      simp only [mainSwitch, closehndBranch]
      by_cases fits : args.length ≤ 1
      · rw [if_pos fits]
        exact always _ fits (by decide)
      · rw [if_neg fits]
        exact assertFails_leaves fits link
  | mkrbf => exact mkrbfBranch_leaves args link
  | tunnel => exact always _ trivial (by decide)
  | bridge => exact always _ trivial (by decide)
  | listen => exact always _ trivial (by decide)
  | send => exact always _ trivial (by decide)
  | exec => exact execBranch_leaves timeout args link
  | vmexec => exact vmexecBranch_leaves args link
  | wpa2 => exact breaks_leaves .arg (printsNamed_keeps _ _ _) trivial (not_early (by decide) args) link
  | flash => exact flashBranch_leaves args link
  | uf2 => exact uf2Branch_leaves args link
  | nop => exact ⟨trivial, early_always (Or.inl rfl) args, link⟩
  | «end» => exact returns_leaves .arg keepsLink_showUsage trivial (early_always (Or.inr rfl) args) link

end Branches

/-- The states of the link that a search can end in. -/
def foundState : Option Transport → LinkState
  | some transport => .linked transport
  | none => .idle

/-- Which calls of the search are made for the command: the switches ask for some of the transports, or for none and
then for all. -/
def Asked (switches : Switches) : CommandKind → MainCall → Prop
  | .online, .opens .usb false _ => switches.hid = true ∨ switches.select = false
  | .online, .opens .serial false _ => switches.serial = true ∨ switches.select = false
  | .online, .opens .tcp false _ => switches.tcp = true ∨ switches.select = false
  | .firmware, .opens .usb true _ => True
  | _, _ => False

/-- How far a search has come: with what it has found it is over. -/
structure Searched (switches : Switches) (kind : CommandKind) (session : Session) (found : Option Transport)
    (machine : Machine) : Prop where
  handle : machine.handle = found
  state : linkState machine.calls = some (foundState found)
  session : machine.session = session
  asked : ∀ call ∈ machine.calls, Asked switches kind call

section Search

variable {switches : Switches} {kind : CommandKind} {session : Session} {machine : Machine}

theorem tryOpen_run (searched : Searched switches kind session none machine) (transport : Transport) {firmware : Bool}
    (found : Bool) (asked : Asked switches kind (.opens transport firmware found)) :
    ∃ after, tryOpen transport firmware found machine = (some found, after) ∧
      Searched switches kind session (if found then some transport else none) after := by
  refine ⟨_, rfl, ⟨rfl, ?_, searched.session, ?_⟩⟩
  · change linkState (machine.calls ++ [.opens transport firmware found]) = _
    rw [linkState_append, searched.state]
    cases found <;> rfl
  · intro call member
    rcases List.mem_append.mp member with before | last
    · exact searched.asked call before
    · rw [List.mem_singleton.mp last]
      exact asked

theorem tryWhere_run (searched : Searched switches kind session none machine) (wanted : Bool) (transport : Transport)
    (found : Bool) (asked : wanted = true → Asked switches kind (.opens transport false found)) :
    ∃ after, tryWhere wanted transport found machine = (some (wanted && found), after) ∧
      Searched switches kind session (if wanted && found then some transport else none) after := by
  cases wanted with
  | false => exact ⟨machine, rfl, searched⟩
  | true => exact tryOpen_run searched transport found (asked rfl)

theorem asked_of_wanted {switched : Bool} (wanted : (switched || !switches.select) = true) :
    switched = true ∨ switches.select = false := by
  cases switched with
  | true => exact Or.inl rfl
  | false => exact Or.inr (by simpa using wanted)

theorem connect_run (opened : Opened) (searched : Searched switches .online session none machine) :
    ∃ after, connect switches opened machine =
        (some (selectTransport switches opened .online).isSome, after) ∧
      Searched switches .online session (selectTransport switches opened .online) after := by
  unfold connect selectTransport
  obtain ⟨first, tried, usb⟩ := tryWhere_run searched (switches.hid || !switches.select) .usb opened.hid asked_of_wanted
  rw [Proc.bind_returned tried]
  cases hid : (switches.hid || !switches.select) && opened.hid with
  | true =>
      rw [hid] at usb
      exact ⟨first, rfl, usb⟩
  | false =>
      rw [hid] at usb
      obtain ⟨second, tried, serial⟩ :=
        tryWhere_run usb (switches.serial || !switches.select) .serial opened.bt asked_of_wanted
      simp only [Bool.false_eq_true, if_false]
      rw [Proc.bind_returned tried]
      cases bt : (switches.serial || !switches.select) && opened.bt with
      | true =>
          rw [bt] at serial
          exact ⟨second, rfl, serial⟩
      | false =>
          rw [bt] at serial
          obtain ⟨third, tried, tcp⟩ :=
            tryWhere_run serial (switches.tcp || !switches.select) .tcp opened.tcp asked_of_wanted
          simp only [Bool.false_eq_true, if_false]
          refine ⟨third, tried.trans ?_, tcp⟩
          cases (switches.tcp || !switches.select) && opened.tcp <;> rfl

/-- The search asks for the transports in their order until it has one, and that is the one selected. -/
theorem findBrick_run (switches : Switches) (opened : Opened) (kind : CommandKind) (session : Session) :
    ∃ found after, findBrick switches opened kind (Machine.started session) = (some found, after) ∧
      (found = true ↔ kind = .offline ∨ (selectTransport switches opened kind).isSome = true) ∧
      Searched switches kind session (selectTransport switches opened kind) after := by
  have start : Searched switches kind session none (Machine.started session) := ⟨rfl, rfl, rfl, nofun⟩
  cases kind with
  | offline => exact ⟨true, _, rfl, iff_of_true rfl (Or.inl rfl), start⟩
  | online =>
      obtain ⟨after, run, searched⟩ := connect_run opened start
      simp only [findBrick]
      rw [Proc.bind_returned run]
      generalize selectTransport switches opened .online = selected at searched ⊢
      cases selected with
      | none => exact ⟨false, _, rfl, by simp, searched.handle, searched.state, searched.session, searched.asked⟩
      | some transport => exact ⟨true, after, rfl, by simp, searched⟩
  | firmware =>
      obtain ⟨after, run, searched⟩ := @tryOpen_run _ _ _ _ start .usb true opened.hidFw trivial
      simp only [findBrick, selectTransport]
      rw [Proc.bind_returned run]
      cases found : opened.hidFw with
      | false =>
          rw [found] at searched
          exact ⟨false, _, rfl, by simp, searched.handle, searched.state, searched.session, searched.asked⟩
      | true =>
          rw [found] at searched
          exact ⟨true, after, rfl, by simp, searched⟩

end Search

/-- The options of the command line are fine and a command follows them. -/
structure Parsed (argv : List CString) (options : OptionState) (command : Bytes) : Prop where
  plain : asksAbout argv = false
  parsed : mainOptions (.started argv) = (some none, options)
  argument : options.argument 1 = .text command

/-- `main` gets to the command and has found a brick for it. -/
structure Starts (surroundings : Surroundings) (argv : List CString) (arg : Arg) (args : List CString)
    (transport : Transport) : Prop where
  line : ∃ options command, Parsed argv options command ∧ findArg command = arg ∧ options.args = args ∧
    selectTransport options.switches surroundings.opened (commandKind command args) = some transport

section Runs

variable {surroundings : Surroundings} {argv args : List CString} {options : OptionState} {command : Bytes}
  {machine : Machine} {session : Session} {switches : Switches} {timeout : UInt32} {transport : Transport} {arg : Arg}

theorem main_parsed (parsed : Parsed argv options command) : main surroundings argv machine =
    mainCommand surroundings options.switches options.params.timeout command options.args machine := by
  rw [main, parsed.plain, if_neg Bool.false_ne_true, parsed.parsed]
  simp only [parsed.argument]

/-- A command line without a command leads to nothing. -/
theorem main_unparsed (none : ¬ ∃ options command, Parsed argv options command) :
    (main surroundings argv machine).2.calls = machine.calls := by
  unfold main
  by_cases asks : asksAbout argv = true
  · rw [if_pos asks]
  · rw [if_neg asks]
    rcases parsed : mainOptions (.started argv) with ⟨_ | _ | err, options⟩
    · rfl
    · simp only
      cases argument : options.argument 1 with
      | text command => exact absurd ⟨options, command, Bool.eq_false_iff.mpr asks, parsed, argument⟩ none
      | null => rfl
      | outside => rfl
    · rfl

theorem offline_end (kind : commandKind command args = .offline) : findArg command = .end := by
  unfold commandKind at kind
  split at kind
  · nomatch kind
  · split at kind
    · rename_i member
      rw [List.mem_singleton.mp (List.contains_iff_mem.mp member)]
      decide
    · nomatch kind

/-- With a brick the run goes on in the branch of the command. -/
theorem mainCommand_linked
    (selected : selectTransport switches surroundings.opened (commandKind command args) = some transport) :
    ∃ middle, Searched switches (commandKind command args) session (some transport) middle ∧
      mainCommand surroundings switches timeout command args (Machine.started session) =
        (mainSwitch surroundings timeout args (findArg command) >>= leaveSwitch surroundings) middle := by
  obtain ⟨found, middle, search, goesOn, searched⟩ :=
    findBrick_run switches surroundings.opened (commandKind command args) session
  rw [selected] at goesOn searched
  refine ⟨middle, searched, ?_⟩
  rw [mainCommand, Proc.bind_returned search, goesOn.mpr (Or.inr rfl)]
  rfl

theorem mainCommand_missing
    (selected : selectTransport switches surroundings.opened (commandKind command args) = none)
    (online : commandKind command args ≠ .offline) :
    ∃ after, mainCommand surroundings switches timeout command args (Machine.started session) =
        (some .comm, after) ∧ Searched switches (commandKind command args) session none after := by
  obtain ⟨found, middle, search, goesOn, searched⟩ :=
    findBrick_run switches surroundings.opened (commandKind command args) session
  rw [selected] at goesOn searched
  have stops : found = false := by
    rw [← Bool.not_eq_true, goesOn]
    simp [online]
  refine ⟨middle, ?_, searched⟩
  rw [mainCommand, Proc.bind_returned search, stops]
  rfl

theorem report_run (ret : Err) (machine : Machine) :
    ∃ after, report surroundings ret machine = (some (), after) ∧ after.handle = machine.handle ∧
      after.calls = machine.calls ∧ after.session = machine.session := by
  rw [report, Proc.bind_apply, Proc.gets_apply]
  simp only
  split
  · exact ⟨_, rfl, rfl, rfl, rfl⟩
  · exact ⟨_, rfl, rfl, rfl, rfl⟩

theorem leaveSwitch_breaks (ret : Err) (link : HasLink transport machine) :
    ∃ after, leaveSwitch surroundings (.breaks ret) machine = (some ret, after) ∧ after.session = machine.session ∧
      linkState after.calls = some .closed := by
  obtain ⟨told, reported, handle, calls, session⟩ := @report_run surroundings ret machine
  have kept : HasLink transport told := ⟨handle.trans link.handle, by rw [calls]; exact link.state⟩
  exact ⟨_, (Proc.bind_returned reported).trans (Proc.bind_returned (closeLink_run kept)), session, kept.closed⟩

/-- The end of a run behind the `switch`: the link is closed unless the branch returned on its own. -/
theorem leaveSwitch_ends {early fits : Prop} {left : SwitchEnd}
    (leaves : SwitchLeaves early fits transport left machine) : Proc.Ends (leaveSwitch surroundings left) machine
      (fun _ after => (fits ∧ early ∧ linkState after.calls = some (.linked transport)) ∨
        (¬ (fits ∧ early) ∧ linkState after.calls = some .closed))
      (fun _ => False) := by
  cases left with
  | breaks ret =>
      obtain ⟨_, late, link⟩ := leaves
      obtain ⟨after, run, _, closed⟩ := @leaveSwitch_breaks surroundings machine transport ret link
      rw [Proc.Ends, run]
      exact Or.inr ⟨fun both => late both.2, closed⟩
  | returns err => exact Or.inl ⟨leaves.1, leaves.2.1, leaves.2.2.state⟩
  | exits err => exact Or.inr ⟨fun both => leaves.1 both.1, leaves.2.2⟩

/-- The command lines that end with the link still open. -/
def LeavesOpen (surroundings : Surroundings) (argv : List CString) : Prop :=
  ∃ arg args transport, Starts surroundings argv arg args transport ∧ AssertionsHold arg args ∧
    EarlyReturn surroundings arg args

/-- A run ends in a state of the link that tells of an early return if it is open. -/
def LinkEnds (leavesOpen : Prop) (calls : List MainCall) : Prop :=
  ∃ state, linkState calls = some state ∧ ((∃ transport, state = .linked transport) ↔ leavesOpen)

theorem Parsed.unique (first : Parsed argv options command) {options' : OptionState} {command' : Bytes}
    (second : Parsed argv options' command') : options' = options ∧ command' = command := by
  have same := second.parsed.symm.trans first.parsed
  cases same
  have text := second.argument.symm.trans first.argument
  cases text
  exact ⟨rfl, rfl⟩

theorem leavesOpen_iff (parsed : Parsed argv options command) : LeavesOpen surroundings argv ↔
    (selectTransport options.switches surroundings.opened (commandKind command options.args)).isSome = true ∧
      AssertionsHold (findArg command) options.args ∧ EarlyReturn surroundings (findArg command) options.args := by
  constructor
  · rintro ⟨arg, args, transport, ⟨options', command', parsed', rfl, rfl, selected⟩, fits, early⟩
    obtain ⟨rfl, rfl⟩ := parsed.unique parsed'
    exact ⟨by rw [selected]; rfl, fits, early⟩
  · rintro ⟨found, fits, early⟩
    obtain ⟨transport, selected⟩ := Option.isSome_iff_exists.mp found
    exact ⟨_, _, transport, ⟨options, command, parsed, rfl, rfl, selected⟩, fits, early⟩

theorem LinkEnds.early {leavesOpen : Prop} {calls : List MainCall} (early : leavesOpen)
    (state : linkState calls = some (.linked transport)) : LinkEnds leavesOpen calls :=
  ⟨_, state, iff_of_true ⟨transport, rfl⟩ early⟩

theorem LinkEnds.over {leavesOpen : Prop} {calls : List MainCall} (late : ¬ leavesOpen) {last : LinkState}
    (state : linkState calls = some last) (shut : last = .idle ∨ last = .closed) : LinkEnds leavesOpen calls := by
  refine ⟨last, state, iff_of_false ?_ late⟩
  rintro ⟨transport, rfl⟩
  rcases shut with same | same <;> nomatch same

theorem mainCommand_ends (parsed : Parsed argv options command) (session : Session) :
    Proc.Ends (mainCommand surroundings options.switches options.params.timeout command options.args)
      (Machine.started session) (fun _ after => LinkEnds (LeavesOpen surroundings argv) after.calls)
      (fun after => ∃ transport, linkState after.calls = some (.linked transport)) := by
  have early := @leavesOpen_iff surroundings argv options command parsed
  cases selected : selectTransport options.switches surroundings.opened (commandKind command options.args) with
  | some transport =>
      obtain ⟨middle, searched, run⟩ :=
        @mainCommand_linked surroundings options.args command session _ options.params.timeout _ selected
      have branch : Proc.Ends (mainSwitch surroundings options.params.timeout options.args (findArg command) >>=
          leaveSwitch surroundings) middle (fun _ after => LinkEnds (LeavesOpen surroundings argv) after.calls)
          (fun after => ∃ transport, linkState after.calls = some (.linked transport)) := by
        refine Proc.ends_bind ((mainSwitch_leaves _ _ _ ⟨searched.handle, searched.state⟩).mono (fun _ _ => id)
          fun after link => ⟨transport, link.state⟩) ?_
        intro left after leaves
        refine (leaveSwitch_ends leaves).mono ?_ fun _ never => never.elim
        rintro err last (⟨fits, soon, state⟩ | ⟨late, state⟩)
        · exact .early (early.mpr ⟨by rw [selected]; rfl, fits, soon⟩) state
        · exact .over (fun leaves => late (early.mp leaves).2) state (Or.inr rfl)
      unfold Proc.Ends at branch ⊢
      rwa [run]
  | none =>
      have late : ¬ LeavesOpen surroundings argv := fun leaves => by
        have found := (early.mp leaves).1
        rw [selected] at found
        nomatch found
      by_cases offline : commandKind command options.args = .offline
      · have run : mainCommand surroundings options.switches options.params.timeout command options.args
            (Machine.started session) = (some .arg, { Machine.started session with usage := true }) := by
          rw [mainCommand, offline, offline_end offline]
          rfl
        rw [Proc.Ends, run]
        exact .over late rfl (Or.inl rfl)
      · obtain ⟨after, run, searched⟩ :=
          @mainCommand_missing surroundings options.args command session _ options.params.timeout selected offline
        rw [Proc.Ends, run]
        exact .over late searched.state (Or.inl rfl)

theorem LinkState.shut_of_linked {calls : List MainCall}
    (link : ∃ transport, linkState calls = some (.linked transport)) :
    ∃ state, linkState calls = some state ∧ state ≠ .closed := by
  obtain ⟨transport, state⟩ := link
  exact ⟨_, state, nofun⟩

end Runs

end Ev3duder
