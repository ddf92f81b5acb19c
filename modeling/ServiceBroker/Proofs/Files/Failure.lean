import ServiceBroker.Proofs.Files.Folder
import ServiceBroker.Proofs.Program.Passage

/-! Work in a folder of which steps fail, or which stops before its end.

A step that fails or is cut off may have done what it should, in part or as a whole. Giving a file
another name is the exception: what fails to do so has done nothing. -/

namespace ServiceBroker.Folder

/-- What a step can leave that fails or is cut off. -/
inductive Partly : FolderStep → Place → Place → Prop where
  | nothing (step : FolderStep) (place : Place) : Partly step place place
  | piece {place : Place} {name : String} {content piece : Bytes} (h : piece <+: content) :
      Partly (.write name content) place (answer (.write name piece) place).2
  | whole {step : FolderStep} {place : Place} (h : ∀ source target, step ≠ .rename source target) :
      Partly step place (answer step place).2

/-- A reply of a step that fails. What cannot be looked at counts as not there. -/
def Fails (step : FolderStep) (reply : step.Reply) : Prop :=
  match step, reply with
  | .present, there | .contains _, there => there = false
  | .read _, reply | .list, reply => ∃ reason, reply = .error reason
  | .make, reply | .create _, reply | .write .., reply | .sync _, reply | .rename .., reply
  | .remove _, reply => ∃ reason, reply = .error reason

/-- What a step may be answered with, and what it then leaves. -/
inductive Yields (step : FolderStep) (place : Place) : step.Reply → Place → Prop where
  | answered : Yields step place (answer step place).1 (answer step place).2
  | failed {reply : step.Reply} {left : Place} (hReply : Fails step reply)
      (hLeft : Partly step place left) : Yields step place reply left

/-- A run of some work, with what its steps were answered and what it leaves. Every step may fail,
and the run may stop before or within any of them. -/
inductive Runs {α : Type} :
    Program folderInterface α → Place → List (Exchange folderInterface) → Place → Prop where
  | ended (value : α) (place : Place) : Runs (.done value) place [] place
  | stopped {step : FolderStep} {next : step.Reply → Program folderInterface α}
      {place left : Place} (h : Partly step place left) :
      Runs (.ask (I := folderInterface) step next) place [] left
  | goesOn {step : FolderStep} {reply : step.Reply}
      {next : step.Reply → Program folderInterface α} {place between left : Place}
      {log : List (Exchange folderInterface)} (h : Yields step place reply between)
      (rest : Runs (next reply) between log left) :
      Runs (.ask (I := folderInterface) step next) place
        (⟨step, reply⟩ :: log : List (Exchange folderInterface)) left

variable {α : Type} {program : Program folderInterface α} {step : FolderStep}
  {place left : Place} {log : List (Exchange folderInterface)}

theorem partly_of_prefix {name : String} {content piece : Bytes} {reply : Except String Unit}
    (hPiece : piece <+: content) (h : answer (.write name piece) place = (reply, left)) :
    Partly (.write name content) place left := by
  have hPartly : Partly (.write name content) place (answer (.write name piece) place).2 :=
    .piece hPiece
  rwa [h] at hPartly

theorem Yields.cases {reply : step.Reply} (h : Yields step place reply left) :
    (answer step place = (reply, left)) ∨ Fails step reply ∧ Partly step place left := by
  cases h with
  | answered => exact .inl rfl
  | failed hReply hLeft => exact .inr ⟨hReply, hLeft⟩

theorem Yields.of_answer {reply : step.Reply} (h : answer step place = (reply, left)) :
    Yields step place reply left := by
  have hYields : Yields step place (answer step place).1 (answer step place).2 := .answered
  rwa [h] at hYields

/-- Work that nothing happens to runs to its end. -/
theorem exists_runs (program : Program folderInterface α) (place : Place) :
    ∃ log, Runs program place log (program.run answer place).2 := by
  induction program generalizing place with
  | done value => exact ⟨[], .ended value place⟩
  | ask step next ih =>
      obtain ⟨log, hRest⟩ := ih (answer step place).1 (answer step place).2
      exact ⟨_, .goesOn .answered hRest⟩

/-- Nothing is done when the work has ended. -/
theorem runs_done {value : α} (h : Runs (.done value) place log left) :
    log = [] ∧ left = place := by
  cases h
  exact ⟨rfl, rfl⟩

/-- What every step of a kind keeps, whatever happens to it, a run of such steps keeps. -/
theorem Runs.keeps {kind : FolderStep → Prop} {Keeps : Place → Prop}
    (hAnswer : ∀ step place, kind step → Keeps place → Keeps (answer step place).2)
    (hPartly : ∀ step place left, kind step → Keeps place → Partly step place left → Keeps left)
    (hRun : Runs program place log left) (hAsks : program.Asks kind) (h : Keeps place) :
    Keeps left := by
  induction hRun with
  | ended => exact h
  | stopped hLeft => exact hPartly _ _ _ hAsks.1 h hLeft
  | goesOn hYields rest ih =>
      refine ih (hAsks.2 _) ?_
      cases hYields with
      | answered => exact hAnswer _ _ hAsks.1 h
      | failed hReply hLeft => exact hPartly _ _ _ hAsks.1 h hLeft

end ServiceBroker.Folder
