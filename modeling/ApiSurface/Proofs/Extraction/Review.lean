import ApiSurface.Proofs.Extraction.Isolation

/-!
# Review of the report

Outside of a local build the approved report is only read: an extraction leaves it
as it was, and says that the report has changed exactly if the approved one is
missing or different.  The outputs go where the settings say, though, and nothing
keeps them away from the approved report.
-/

namespace ApiSurface

private theorem Settings.expandPath_keeps {packageName unscoped key other : String}
    {settings expanded : Settings}
    (h : Settings.expandPath packageName unscoped settings key = .ok expanded)
    (hother : other ≠ key) : expanded.lookup other = settings.lookup other := by
  unfold Settings.expandPath at h
  dsimp only at h
  split at h
  · split at h
    · cases h
      exact Entries.lookup_insert_of_ne hother _ _
    · cases h
  · cases h
    rfl

theorem Settings.expandPaths_keeps {settings expanded : Settings} {packageName : Datum}
    (h : settings.expandPaths packageName = .ok expanded) {key : String}
    (hkey : key ∉ pathKeys) : expanded.lookup key = settings.lookup key := by
  simp only [Settings.expandPaths, bind_eq_ok] at h
  obtain ⟨unscoped, -, h⟩ := h
  refine foldlM_preserves (fun (expanded : Settings) => expanded.lookup key = settings.lookup key)
    ?_ rfl h
  intro before path after hpath hbefore hafter
  have hother : key ≠ path := fun hsame => hkey (hsame ▸ hpath)
  exact (expandPath_keeps hafter hother).trans hbefore

theorem Settings.enabled_expandPaths {settings expanded : Settings} {packageName : Datum}
    (h : settings.expandPaths packageName = .ok expanded) {key : String}
    (hkey : key ∉ pathKeys) : expanded.enabled key = settings.enabled key := by
  rw [enabled, enabled, expandPaths_keeps h hkey]

namespace Job

variable {job : Job} {surface : Surface}

theorem Reports.generated {before after : Files} {trails : Trails} {result : ReportResult}
    (h : job.Reports surface before trails result after) (hreviews : job.reviews = true)
    (hmade : result.failure = none) :
    ∃ actual approved content, job.reportPaths = .ok (actual, approved) ∧
      job.reportText surface trails = .ok content ∧
      job.Reviewed approved content (before.write (job.pathOf actual) content) result
        after := by
  rw [Reports, if_pos hreviews] at h
  cases h with
  | generated paths text reviewed => exact ⟨_, _, _, paths, text, reviewed⟩
  | failed paths fault counted files =>
      rw [counted] at hmade
      cases hmade

theorem Reports.unapproved {before after : Files} {trails : Trails} {result : ReportResult}
    (h : job.Reports surface before trails result after) (hreviews : job.reviews = true)
    (hlocal : job.isLocal = false) (hmade : result.failure = none) :
    ∃ actual approved content, job.reportPaths = .ok (actual, approved) ∧
      job.reportText surface trails = .ok content ∧
      after = before.write (job.pathOf actual) content ∧
      (result.changed = true ↔ ∀ expected, after.read? approved = some expected →
        Text.equivalent content expected = false) := by
  obtain ⟨actual, approved, content, hpaths, htext, hreviewed⟩ := h.generated hreviews hmade
  have hfiles : after = before.write (job.pathOf actual) content := by
    simpa [hlocal, Files.writeAll] using hreviewed.files
  exact ⟨actual, approved, content, hpaths, htext, hfiles, hfiles ▸ hreviewed.changed⟩

theorem Reports.made {before after : Files} {trails : Trails} {result : ReportResult}
    (h : job.Reports surface before trails result after) {content : Text}
    (htext : job.reportText surface trails = .ok content) : result.failure = none := by
  unfold Reports at h
  split at h
  · cases h with
    | generated paths text reviewed => exact reviewed.failure
    | failed paths fault counted files =>
        rw [htext] at fault
        cases fault
  · rw [h.1]

theorem Extracted.read?_of_apart {report : ReportResult} {reported after : Files}
    {outcome : Outcome} (h : job.Extracted surface report reported outcome after)
    {path : FilePath}
    (hapart : ∀ output ∈ job.rollupOutputs ++ job.tableOutputs,
      path.place reported.current ≠ output.place reported.current)
    (hway : after.locate? path = reported.locate? path ∨ ".." ∉ path.components) :
    after.read? path = reported.read? path := by
  rw [h.files] at hway ⊢
  refine Files.read?_writeAll_of_ne ?_ hway
  intro entry hentry
  apply hapart
  rcases List.mem_append.mp hentry with hentry | hentry
  · exact List.mem_append_left _
      ((rollupWrites_sublist _).subset (List.mem_map_of_mem hentry))
  · exact List.mem_append_right _ (tableWrites_sublist.subset (List.mem_map_of_mem hentry))

/-- Outside of a local build, a report that is generated is said to have changed
exactly if the approved one was missing or different, provided that the new report
is written elsewhere and that no folder on the way to the approved one is made.  If
no other output is written there either, the approved report is kept. -/
theorem extract_keeps_approved {graph : ModuleGraph} {before after : Workspace}
    {outcome : Outcome} (hends : Ends (job.extract graph) before outcome after)
    (hreviews : job.reviews = true) (hlocal : job.isLocal = false)
    (hmade : outcome.reportError = none) :
    ∃ settings surface actual approved content,
      job.settings.expandPaths graph.packageName = .ok settings ∧
      Surface.analyze graph { rules := (settings.lookup "messages").getD .null } =
        .ok surface ∧
      reportPaths { job with settings := settings } = .ok (actual, approved) ∧
      reportText { job with settings := settings } surface before.trails = .ok content ∧
      (approved.place before.files.current ≠
          (pathOf { job with settings := settings } actual).place before.files.current →
        after.files.locate? approved = before.files.locate? approved ∨
          ".." ∉ approved.components →
        (outcome.reportChanged = true ↔ before.files.read? approved = none ∨
          ∃ expected, before.files.read? approved = some expected ∧
            Text.equivalent content expected = false) ∧
        ((∀ output ∈ rollupOutputs { job with settings := settings } ++
            tableOutputs { job with settings := settings },
            approved.place before.files.current ≠ output.place before.files.current) →
          after.files.read? approved = before.files.read? approved)) := by
  obtain ⟨settings, surface, hexpanded, hanalyzed, hends⟩ := extract_ends.mp hends
  obtain ⟨report, reported, hreports, hextracted⟩ := extractSurface_ends hends
  obtain ⟨actual, approved, content, hpaths, htext, hreported, hchanged⟩ :=
    hreports.unapproved ((Settings.enabled_expandPaths hexpanded (by decide)).trans hreviews)
      ((Settings.enabled_expandPaths hexpanded (by decide)).trans hlocal)
      (hextracted.reportError.symm.trans hmade)
  refine ⟨settings, surface, actual, approved, content, hexpanded, hanalyzed, hpaths, htext, ?_⟩
  intro hactual hway
  -- The approved report is read when the new one has been written.
  have hwritten : before.files.Grows reported := hreported ▸ Files.write_grows _ _ _
  have hfinished : reported.Grows after.files := hextracted.files ▸ Files.writeAll_grows _ _
  have hmiddle : after.files.locate? approved = before.files.locate? approved →
      reported.locate? approved = before.files.locate? approved :=
    hwritten.locate?_between hfinished
  have hread : reported.read? approved = before.files.read? approved := by
    rw [hreported] at hmiddle ⊢
    exact Files.read?_write_of_ne hactual (hway.imp_left hmiddle)
  constructor
  · rw [hextracted.reportChanged, hchanged, hread]
    cases before.files.read? approved <;> simp
  · intro hapart
    have hcurrent : reported.current = before.files.current := hwritten.current
    refine (hextracted.read?_of_apart ?_ (hway.imp_left fun hsame => ?_)).trans hread
    · rwa [hcurrent]
    · exact hsame.trans (hmiddle hsame).symm

def soundPackage : ModuleGraph := { brokenPackage with exports := [(.text "A", .text "A")] }

/-- The new report goes to the given folder, the approved one is in `e`. -/
def reviewJob (temporary : String) : Job :=
  { brokenJob with
    settings := Entries.insert "report_temp_folder" (.text temporary) brokenJob.settings }

def outdated : Workspace where
  files := { texts := [(["e", "r"], "old".toList)] }

theorem soundPackage_plain : soundPackage.Plain :=
  { brokenPackage_plain with
    names := ⟨brokenPackage_plain.names.1, brokenPackage_plain.names.2⟩ }

set_option maxRecDepth 4000 in
theorem soundPackage_run : (do
    let surface ← Surface.analyze soundPackage {}
    let content ← ((surface.report ⟨.text "lf", .lf⟩).outcome []).1
    pure (Text.equivalent content "old".toList)) = .ok false := by
  cbv

theorem reviewJob_paths {temporary : String} (h : '<' ∉ temporary.toList) :
    ∀ key ∈ Settings.pathKeys, ∃ text,
      (reviewJob temporary).settings.lookup key = some (.text text) ∧ '<' ∉ text.toList := by
  intro key hkey
  by_cases hsame : key = "report_temp_folder"
  · subst hsame
    exact ⟨temporary, Entries.lookup_insert_self _ _ _, h⟩
  · rw [reviewJob, Entries.lookup_insert_of_ne hsame]
    exact brokenJob_paths key hkey

theorem reviewJob_ends {temporary : String} (h : '<' ∉ temporary.toList) :
    ∃ surface content report reported outcome after,
      Surface.analyze soundPackage {} = .ok surface ∧
      (reviewJob temporary).reportText surface [] = .ok content ∧
      Text.equivalent content "old".toList = false ∧
      Ends ((reviewJob temporary).extract soundPackage) outdated outcome after ∧
      (reviewJob temporary).Reports surface outdated.files [] report reported ∧
      (reviewJob temporary).Extracted surface report reported outcome after.files := by
  have hrun := soundPackage_run
  simp only [bind_eq_ok, pure_eq_ok] at hrun
  obtain ⟨surface, hanalyzed, content, hcontent, hdiffers⟩ := hrun
  have hexpanded : (reviewJob temporary).settings.expandPaths soundPackage.packageName =
      .ok (reviewJob temporary).settings :=
    Settings.expandPaths_of_plain (reviewJob_paths h) "broken"
  have hkey : "report_temp_folder" ∈ Settings.pathKeys := by decide
  have hvalid : (reviewJob temporary).settings.Valid := brokenJob_valid.insert hkey temporary
  obtain ⟨outcome, after, hextract, hends⟩ :=
    extract_completes soundPackage_plain hexpanded hvalid hanalyzed outdated
  obtain ⟨report, reported, hreports, hextracted⟩ := extractSurface_ends hends
  exact ⟨surface, content, report, reported, outcome, after, hanalyzed, hcontent, hdiffers,
    hextract, hreports, hextracted⟩

theorem reviewJob_apart (temporary : String) :
    ∀ output ∈ (reviewJob temporary).rollupOutputs ++ (reviewJob temporary).tableOutputs,
      (FilePath.ofString "/e/r").place [] ≠ output.place [] := by
  have houtputs : (reviewJob temporary).rollupOutputs ++ (reviewJob temporary).tableOutputs =
      [FilePath.ofString "/i", FilePath.ofString "/p"] := rfl
  rw [houtputs]
  decide

/-- The new report is written to another folder; the outdated one is kept. -/
theorem extract_keeps_approved_outdated :
    ∃ outcome after, Ends ((reviewJob "t").extract soundPackage) outdated outcome after ∧
      (reviewJob "t").reviews = true ∧ (reviewJob "t").isLocal = false ∧
      outcome.reportError = none ∧ outcome.reportChanged = true ∧
      outdated.files.read? (FilePath.ofString "/e/r") = some "old".toList ∧
      after.files.read? (FilePath.ofString "/e/r") = some "old".toList := by
  obtain ⟨surface, content, report, reported, outcome, after, hanalyzed, hcontent, hdiffers,
    hends, hreports, hextracted⟩ := @reviewJob_ends "t" (by decide)
  have hmade : outcome.reportError = none := hextracted.reportError.trans (hreports.made hcontent)
  have hread : outdated.files.read? (FilePath.ofString "/e/r") = some "old".toList := by decide
  obtain ⟨settings, found, actual, approved, text, hexpanded, hfound, hpaths, htext, hkeeps⟩ :=
    extract_keeps_approved hends rfl rfl hmade
  obtain rfl : (reviewJob "t").settings = settings := Except.ok.inj
    ((Settings.expandPaths_of_plain (reviewJob_paths (by decide)) "broken").symm.trans hexpanded)
  obtain ⟨rfl, rfl⟩ : actual = FilePath.ofString "/t/r" ∧ approved = FilePath.ofString "/e/r" := by
    have hsame : (reviewJob "t").reportPaths =
        .ok (FilePath.ofString "/t/r", FilePath.ofString "/e/r") := rfl
    simpa [eq_comm] using hsame.symm.trans hpaths
  obtain rfl : surface = found := Except.ok.inj (hanalyzed.symm.trans hfound)
  obtain rfl : content = text := Except.ok.inj (hcontent.symm.trans htext)
  obtain ⟨hchanged, hkept⟩ := hkeeps (by decide) (.inr (by decide))
  exact ⟨outcome, after, hends, rfl, rfl, hmade, hchanged.mpr (.inr ⟨_, hread, hdiffers⟩), hread,
    (hkept (reviewJob_apart "t")).trans hread⟩

/-- The new report is written to the folder of the approved one: it replaces the
outdated report and is then compared with itself. -/
theorem extract_replaces_approved :
    ∃ surface content outcome after,
      Surface.analyze soundPackage {} = .ok surface ∧
      (reviewJob "e").reportText surface [] = .ok content ∧
      Ends ((reviewJob "e").extract soundPackage) outdated outcome after ∧
      (reviewJob "e").reviews = true ∧ (reviewJob "e").isLocal = false ∧
      outcome.reportError = none ∧
      outdated.files.read? (FilePath.ofString "/e/r") = some "old".toList ∧
      Text.equivalent content "old".toList = false ∧
      after.files.read? (FilePath.ofString "/e/r") = some content ∧
      outcome.reportChanged = false := by
  obtain ⟨surface, content, report, reported, outcome, after, hanalyzed, hcontent, hdiffers,
    hends, hreports, hextracted⟩ := @reviewJob_ends "e" (by decide)
  have hmade := hreports.made hcontent
  obtain ⟨actual, approved, text, hpaths, htext, hreported, hchanged⟩ :=
    hreports.unapproved rfl rfl hmade
  obtain ⟨rfl, rfl⟩ : actual = FilePath.ofString "/e/r" ∧ approved = FilePath.ofString "/e/r" := by
    have hsame : (reviewJob "e").reportPaths =
        .ok (FilePath.ofString "/e/r", FilePath.ofString "/e/r") := rfl
    simpa [eq_comm] using hsame.symm.trans hpaths
  obtain rfl : content = text := Except.ok.inj (hcontent.symm.trans htext)
  have hread : reported.read? (FilePath.ofString "/e/r") = some content :=
    hreported ▸ Files.read?_write_self _ _ _
  refine ⟨surface, content, outcome, after, hanalyzed, hcontent, hends, rfl, rfl,
    hextracted.reportError.trans hmade, by decide, hdiffers, ?_, ?_⟩
  · refine (hextracted.read?_of_apart ?_ (.inr (by decide))).trans hread
    rw [hreported, Files.current_write]
    exact reviewJob_apart "e"
  · rw [hextracted.reportChanged, ← Bool.not_eq_true, hchanged]
    simp [hread, Text.equivalent]

end Job

end ApiSurface
