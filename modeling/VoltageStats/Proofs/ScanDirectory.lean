import VoltageStats.Proofs.StatPath

/-!
# Directories of archives

Whatever is told about a scan, its subsystem is one of two (`ScanDirectory.hasSubsystem_ofDetails`).
The path of an archive then leads from the base down through the documented directories exactly if
the execution block and the scan can be the names of directories, and there is no slash in the start
of the scan (`ScanDirectory.path_descends_iff`). An execution block that starts with a slash takes
the place of the base (`ScanDirectory.path_rootedBlock`).
-/

namespace VoltageStats.ScanDirectory

variable {d : ScanDirectory} {name : ArchiveName} {path : String}

/-! ## Subsystems -/

/-- The directories of the subsystems. -/
def subsystems : List String := ["pst-low", "pst-mid"]

theorem mem_subsystems {telescope found : String}
    (h : VoltageStats.subsystem telescope = .ok found) : found ∈ subsystems := by
  unfold VoltageStats.subsystem at h
  split at h
  · obtain rfl := Except.ok.inj h
    exact List.mem_cons_self
  · split at h
    · obtain rfl := Except.ok.inj h
      exact List.mem_cons_of_mem _ List.mem_cons_self
    · cases h

/-- A directory whose subsystem, if it is known, is one of those there are. -/
def HasSubsystem (d : ScanDirectory) : Prop := ∀ found ∈ d.subsystem, found ∈ subsystems

theorem HasSubsystem.learn (h : d.HasSubsystem) (detail : Detail) :
    (d.learn detail).HasSubsystem := by
  cases detail with
  | basePath path => exact h
  | ebId id => exact h
  | scanId id => exact h
  | telescope telescope =>
      rw [ScanDirectory.learn, withTelescope]
      cases hfound : VoltageStats.subsystem telescope with
      | error error => exact h
      | ok found =>
          intro other hother
          obtain rfl := Option.some.inj hother
          exact mem_subsystems hfound

/-- No details lead to another subsystem. -/
theorem hasSubsystem_ofDetails (details : List Detail) : (ofDetails details).HasSubsystem := by
  have hunknown : unknown.HasSubsystem := fun found hfound => by cases hfound
  rw [ofDetails]
  generalize unknown = d at hunknown
  induction details generalizing d with
  | nil => exact hunknown
  | cons detail details ih => exact ih (d.learn detail) (hunknown.learn detail)

/-! ## Paths -/

theorem required_eq_ok_iff {value : Option String} {error : StatPathError} {text : String} :
    required value error = .ok text ↔ value = some text ∧ text ≠ "" := by
  cases value with
  | none => simp [required]
  | some found =>
      by_cases hempty : found = ""
      · simp [required, hempty, eq_comm]
      · simp only [required, if_neg hempty, Except.ok.injEq, Option.some.injEq]
        exact ⟨fun h => ⟨h, h ▸ hempty⟩, And.left⟩

/-- What comes after the base on the way to an archive. -/
def levels (ebId subsystem scanId : String) (name : ArchiveName) : List String :=
  ["product", ebId, subsystem, scanId, "monitoring_stats", name.text]

/-- There is a path once all that is required is known and not empty. -/
theorem path_eq_ok_iff :
    d.path name = .ok path ↔ ∃ base ebId subsystem scanId : String,
      d = ⟨some base, some ebId, some subsystem, some scanId⟩ ∧
      (base ≠ "" ∧ ebId ≠ "" ∧ subsystem ≠ "" ∧ scanId ≠ "") ∧
      path = (levels ebId subsystem scanId name).foldl Path.join base := by
  obtain ⟨basePath, ebId, subsystem, scanId⟩ := d
  simp only [ScanDirectory.path, except_bind_eq_ok_iff, except_pure_eq_ok_iff, required_eq_ok_iff,
    mk.injEq]
  constructor
  · rintro ⟨base, ⟨rfl, hbase⟩, block, ⟨rfl, hblock⟩, found, ⟨rfl, hfound⟩, scan, ⟨rfl, hscan⟩, rfl⟩
    exact ⟨base, block, found, scan, ⟨rfl, rfl, rfl, rfl⟩, ⟨hbase, hblock, hfound, hscan⟩, rfl⟩
  · rintro ⟨base, block, found, scan, ⟨rfl, rfl, rfl, rfl⟩, ⟨hbase, hblock, hfound, hscan⟩, rfl⟩
    exact ⟨base, ⟨rfl, hbase⟩, block, ⟨rfl, hblock⟩, found, ⟨rfl, hfound⟩, scan, ⟨rfl, hscan⟩, rfl⟩

theorem isFileName_levels_iff {ebId subsystem scanId : String}
    (hsubsystem : subsystem ∈ subsystems) :
    (∀ level ∈ levels ebId subsystem scanId name, Path.IsFileName level) ↔
      Path.IsFileName ebId ∧ Path.IsFileName scanId ∧ '/' ∉ name.utcStart.toList := by
  have hproduct : Path.IsFileName "product" := by constructor <;> decide
  have hmonitoring : Path.IsFileName "monitoring_stats" := by constructor <;> decide
  have hfound : Path.IsFileName subsystem := by
    simp only [subsystems, List.mem_cons, List.not_mem_nil, or_false] at hsubsystem
    rcases hsubsystem with rfl | rfl <;> constructor <;> decide
  simp [levels, hproduct, hmonitoring, hfound, ArchiveName.isFileName_text_iff]

/-- Of whatever is told about a scan, the path of an archive is made up of a base, an execution
block, one of the two subsystems and a scan. It leads from the base down through six components,
the product directory, the block, the subsystem, the scan, the statistics directory and the name of
the archive, exactly if the block and the scan can be the names of directories, and there is no
slash in the start of the scan. -/
theorem path_descends_iff (details : List Detail) (name : ArchiveName) (path : String)
    (h : (ofDetails details).path name = .ok path) :
    ∃ base ebId subsystem scanId : String,
      ofDetails details = ⟨some base, some ebId, some subsystem, some scanId⟩ ∧ base ≠ "" ∧
      (subsystem = "pst-low" ∨ subsystem = "pst-mid") ∧
      (Path.Descends base ["product", ebId, subsystem, scanId, "monitoring_stats", name.text] path ↔
        Path.IsFileName ebId ∧ Path.IsFileName scanId ∧ '/' ∉ name.utcStart.toList) := by
  obtain ⟨base, ebId, subsystem, scanId, hdetails, hne, rfl⟩ := path_eq_ok_iff.mp h
  have hsubsystem : subsystem ∈ subsystems :=
    hasSubsystem_ofDetails details subsystem (by rw [hdetails]; rfl)
  refine ⟨base, ebId, subsystem, scanId, hdetails, hne.1, ?_, ?_⟩
  · simpa [subsystems] using hsubsystem
  · rw [← isFileName_levels_iff hsubsystem]
    exact Path.descends_foldl_join_iff base

/-- A telescope that has no subsystem does not take the place of one that has. -/
theorem path_descends_twoTelescopes :
    let details : List Detail :=
      [.scanId "7", .telescope "SKAMid", .basePath "/data", .ebId "eb-m001", .telescope "MWA"]
    let name : ArchiveName := ⟨"2023-10-23-11:00:00", 1024, 3⟩
    let path := "/data/product/eb-m001/pst-mid/7/monitoring_stats/" ++
      "2023-10-23-11:00:00_0000000000001024_000003.npz"
    (ofDetails details).path name = .ok path ∧
      Path.Descends "/data" ["product", "eb-m001", "pst-mid", "7", "monitoring_stats",
        "2023-10-23-11:00:00_0000000000001024_000003.npz"] path := by
  intro details name path
  have hpath : (ofDetails details).path name = .ok path := by decide +kernel
  obtain ⟨base, ebId, subsystem, scanId, hdetails, -, -, hdescends⟩ :=
    path_descends_iff details name path hpath
  have hknown : ofDetails details = ⟨some "/data", some "eb-m001", some "pst-mid", some "7"⟩ := by
    decide +kernel
  obtain ⟨rfl, rfl, rfl, rfl⟩ : base = "/data" ∧ ebId = "eb-m001" ∧ subsystem = "pst-mid" ∧
      scanId = "7" := by simpa [hknown, eq_comm] using hdetails
  have hname : name.text = "2023-10-23-11:00:00_0000000000001024_000003.npz" := by decide +kernel
  rw [hname] at hdescends
  refine ⟨hpath, hdescends.mpr ⟨?_, ?_, by decide⟩⟩ <;> constructor <;> decide

/-- An execution block that starts with a slash takes the place of the base, so that the path leads
nowhere below it. -/
theorem path_rootedBlock :
    let details : List Detail :=
      [.basePath "/base", .ebId "/etc", .telescope "SKALow", .scanId "7"]
    let path := "/etc/pst-low/7/monitoring_stats/2023-10-23-11:00:00_0000000000001024_000003.npz"
    (ofDetails details).path ⟨"2023-10-23-11:00:00", 1024, 3⟩ = .ok path ∧
      ∀ levels, ¬ Path.Descends "/base" levels path := by
  intro details path
  have hstarts : ¬ "/base".toList <+: path.toList := by decide +kernel
  exact ⟨by decide +kernel, fun levels h => hstarts h.starts⟩

end VoltageStats.ScanDirectory
