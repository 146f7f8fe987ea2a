import VoltageStats.Proofs.Command.Replay
import VoltageStats.Proofs.Generator.Config
import VoltageStats.Proofs.ScanDirectory

/-!
# Archives are where their headers say

The options reach the path of an archive and its header by two ways, and only on the way to the
header do defaults take the place of identifiers that are not given. A path needs these identifiers,
though, so wherever there is one the two ways lead to the same directory
(`GivenOptions.directory_eq_ofMetadata`). If no path is given, the one that follows from the options
is therefore the one that the header leads to, and there is one exactly if the options say where the
scan is kept (`Command.plan_without_output`).
-/

namespace VoltageStats

/-- A number has a digit. -/
theorem toString_ne_empty (n : UInt64) : toString n ≠ "" := by
  intro hempty
  have hdigits : Nat.toDigits 10 n.toNat = [] := by
    rw [← String.toList_ofList (l := Nat.toDigits 10 n.toNat), ← Nat.toString_eq_ofList_toDigits]
    exact congrArg String.toList hempty
  exact Nat.toDigits_ne_nil hdigits

namespace ScanDirectory

variable {d found : ScanDirectory} {telescope : String}

/-- The telescopes that have a subsystem. -/
theorem subsystem_eq_ok_iff : (∃ directory, VoltageStats.subsystem telescope = .ok directory) ↔
    telescope = "SKALow" ∨ telescope = "SKAMid" := by
  rw [VoltageStats.subsystem]
  split_ifs <;> simp [*]

theorem withTelescope_eq_ok_iff : d.withTelescope telescope = .ok found ↔
    ∃ directory, VoltageStats.subsystem telescope = .ok directory ∧
      { d with subsystem := some directory } = found := by
  simp only [withTelescope, except_bind_eq_ok_iff, except_pure_eq_ok_iff]

end ScanDirectory

namespace GivenOptions

variable {given : GivenOptions} {d : ScanDirectory} {path : String}

/-- Options that say where a scan is kept. -/
structure Locates (given : GivenOptions) : Prop where
  statBase : ∃ base : String, given.value? .statBase = some base ∧ base ≠ ""
  ebId : ∃ block : String, given.value? .ebId = some block ∧ block ≠ ""
  scanId : ∃ id : UInt64, given.value? .scanId = some id
  telescope : (given.value? .telescope).getD "SKALow" = "SKALow" ∨
    (given.value? .telescope).getD "SKALow" = "SKAMid"

theorem directory_eq_ok_iff : given.directory = .ok d ↔
    ∃ directory, subsystem given.identifiers.telescope = .ok directory ∧
      ⟨given.value? .statBase, given.value? .ebId, some directory,
        (given.value? .scanId).map fun (id : UInt64) => toString id⟩ = d :=
  ScanDirectory.withTelescope_eq_ok_iff

/-- Without a path that is given, the path is that of the archive in its directory. -/
theorem path_eq_ok_iff (houtput : given.value? .output = .none) : given.path = .ok path ↔
    ∃ d, given.directory = .ok d ∧ d.path given.archiveName = .ok path := by
  rw [GivenOptions.path, houtput]
  exact except_bind_eq_ok_iff

/-- There is a path exactly if the options say where the scan is kept. -/
theorem exists_path_iff (houtput : given.value? .output = .none) :
    (∃ path, given.path = .ok path) ↔ given.Locates := by
  simp only [path_eq_ok_iff houtput]
  constructor
  · intro h
    obtain ⟨path, d, hdirectory, hpath⟩ := h
    obtain ⟨directory, hsubsystem, rfl⟩ := directory_eq_ok_iff.mp hdirectory
    obtain ⟨base, block, _, scan, hknown, hne, -⟩ := ScanDirectory.path_eq_ok_iff.mp hpath
    obtain ⟨hbase, hblock, -, hscan⟩ := ScanDirectory.mk.inj hknown
    obtain ⟨id, hid, -⟩ := Option.map_eq_some_iff.mp hscan
    exact ⟨⟨base, hbase, hne.1⟩, ⟨block, hblock, hne.2.1⟩, ⟨id, hid⟩,
      ScanDirectory.subsystem_eq_ok_iff.mp ⟨directory, hsubsystem⟩⟩
  · intro h
    obtain ⟨base, hbase, hbaseNe⟩ := h.statBase
    obtain ⟨block, hblock, hblockNe⟩ := h.ebId
    obtain ⟨id, hid⟩ := h.scanId
    obtain ⟨directory, hsubsystem⟩ := ScanDirectory.subsystem_eq_ok_iff.mpr h.telescope
    have hdirectoryNe : directory ≠ "" := by
      have hmem := ScanDirectory.mem_subsystems hsubsystem
      intro hempty
      rw [hempty] at hmem
      exact absurd hmem (by decide)
    refine ⟨_, _, directory_eq_ok_iff.mpr ⟨directory, hsubsystem, rfl⟩,
      ScanDirectory.path_eq_ok_iff.mpr ⟨base, block, directory, toString id, ?_,
        ⟨hbaseNe, hblockNe, hdirectoryNe, toString_ne_empty id⟩, rfl⟩⟩
    rw [hbase, hblock, hid]
    rfl

/-- Where the identifiers of a scan are given, the header leads to the directory that the options
lead to. -/
theorem directory_eq_ofMetadata {base block : String} {id : UInt64}
    (hbase : given.value? .statBase = some base) (hblock : given.value? .ebId = some block)
    (hid : given.value? .scanId = some id) (c : Config) (g : Generated) :
    given.directory = ScanDirectory.ofMetadata base (c.headerFor given.identifiers g) := by
  have hebId : given.identifiers.ebId = block := by
    rw [identifiers, hblock]
    rfl
  have hscanId : given.identifiers.scanId = id := by
    rw [identifiers, hid]
    rfl
  rw [directory, ScanDirectory.ofMetadata]
  simp only [Config.headerFor, hbase, hblock, hid, hebId, hscanId]
  rfl

end GivenOptions

namespace Command

variable {given : GivenOptions} {p : Plan}

theorem outcome_eq_ok_iff : outcome given = .ok p ↔
    ∃ c path, Config.ofSettings given.settings = .ok c ∧ given.path = .ok path ∧
      ⟨c, given.identifiers, path⟩ = p := by
  simp only [outcome, except_bind_eq_ok_iff, except_pure_eq_ok_iff, except_mapError_eq_ok_iff]
  constructor
  · intro h
    obtain ⟨c, hconfig, path, hpath, hplan⟩ := h
    exact ⟨c, path, hconfig, hpath, hplan⟩
  · intro h
    obtain ⟨c, path, hconfig, hpath, hplan⟩ := h
    exact ⟨c, hconfig, path, hpath, hplan⟩

/-- A plan follows from options if it is what they come to. -/
theorem exists_run_plan_iff {s : Session} :
    (∃ t, (plan given : Action Plan).run s = (.ok p, t)) ↔ outcome given = .ok p := by
  obtain ⟨t, hrun⟩ := run_plan given s
  rw [hrun]
  constructor
  · intro h
    obtain ⟨_, h⟩ := h
    exact (Prod.mk.inj h).1
  · intro h
    exact ⟨t, by rw [h]⟩

/-- If no path is given, an archive is put where its own header says that it belongs: below the
base that is given, at the path that the header leads to with the start of the scan in it and the
given numbers. There is such a plan exactly if the settings are accepted and the options say where
the scan is kept. -/
theorem plan_without_output (given : GivenOptions) (houtput : given.value? .output = none)
    (s : Session) :
    (∀ p t, (plan given : Action Plan).run s = (.ok p, t) →
      ∃ base, given.value? .statBase = some base ∧
        ∀ g, ∃ d, ScanDirectory.ofMetadata base (p.config.statisticsOf p.ids g).metadata = .ok d ∧
          d.path ⟨(p.config.statisticsOf p.ids g).metadata.utcStart,
            (given.value? .obsOffset).getD (0 : UInt64),
            (given.value? .fileNumber).getD (0 : UInt64)⟩ = .ok p.path) ∧
    ((∃ p t, (plan given : Action Plan).run s = (.ok p, t)) ↔
      (∃ c, Config.ofSettings given.settings = .ok c) ∧ given.Locates) := by
  constructor
  · intro p t hrun
    obtain ⟨c, path, hconfig, hpath, rfl⟩ :=
      outcome_eq_ok_iff.mp (exists_run_plan_iff.mp ⟨t, hrun⟩)
    have hlocates := (GivenOptions.exists_path_iff houtput).mp ⟨path, hpath⟩
    obtain ⟨base, hbase, -⟩ := hlocates.statBase
    obtain ⟨block, hblock, -⟩ := hlocates.ebId
    obtain ⟨id, hid⟩ := hlocates.scanId
    obtain ⟨d, hdirectory, hfile⟩ := (GivenOptions.path_eq_ok_iff houtput).mp hpath
    refine ⟨base, hbase, fun g => ⟨d, ?_, hfile⟩⟩
    rw [← hdirectory, GivenOptions.directory_eq_ofMetadata hbase hblock hid c g]
    rfl
  · rw [← GivenOptions.exists_path_iff houtput]
    simp only [exists_run_plan_iff, outcome_eq_ok_iff]
    constructor
    · intro h
      obtain ⟨p, c, path, hconfig, hpath, -⟩ := h
      exact ⟨⟨c, hconfig⟩, path, hpath⟩
    · intro h
      obtain ⟨⟨c, hconfig⟩, path, hpath⟩ := h
      exact ⟨_, c, path, hconfig, hpath, rfl⟩

/-- Options that say where a scan is kept, and little else. -/
def scanSeven : GivenOptions where
  value?
    | .statBase => some "/data"
    | .ebId => some "eb-m001"
    | .scanId => some (7 : UInt64)
    | .fileNumber => some (3 : UInt64)
    | _ => none

theorem plan_scanSeven :
    scanSeven.value? .output = none ∧
      ∃ p t, (plan scanSeven : Action Plan).run (oneFile "") = (.ok p, t) ∧
        p.path = "/data/product/eb-m001/pst-low/7/monitoring_stats/" ++
          "2023-10-23-11:00:00_0000000000000000_000003.npz" ∧
        ∀ g, ∃ d, ScanDirectory.ofMetadata "/data" (p.config.headerFor p.ids g) = .ok d ∧
          d.path ⟨"2023-10-23-11:00:00", 0, 3⟩ = .ok p.path := by
  have hsettings : ∃ c, Config.ofSettings scanSeven.settings = .ok c :=
    ⟨⟨scanSeven.settings, by decide +kernel, List.Pairwise.nil⟩, Config.ofSettings_eq_ok_iff.mpr rfl⟩
  have hlocates : scanSeven.Locates :=
    ⟨⟨"/data", rfl, by decide⟩, ⟨"eb-m001", rfl, by decide⟩, ⟨(7 : UInt64), rfl⟩, .inl rfl⟩
  obtain ⟨hplan, hexists⟩ := plan_without_output scanSeven rfl (oneFile "")
  obtain ⟨p, t, hrun⟩ := hexists.mpr ⟨hsettings, hlocates⟩
  obtain ⟨c, path, -, hpath, rfl⟩ := outcome_eq_ok_iff.mp (exists_run_plan_iff.mp ⟨t, hrun⟩)
  have htext : scanSeven.path = .ok ("/data/product/eb-m001/pst-low/7/monitoring_stats/" ++
      "2023-10-23-11:00:00_0000000000000000_000003.npz") := by decide +kernel
  obtain ⟨base, hbase, hheader⟩ := hplan _ t hrun
  obtain rfl := Option.some.inj hbase
  exact ⟨rfl, _, t, hrun, Except.ok.inj (hpath.symm.trans htext), hheader⟩

end Command

end VoltageStats
