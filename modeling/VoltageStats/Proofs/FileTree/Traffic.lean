import VoltageStats.Proofs.FileTree.RoundTrip
import VoltageStats.Proofs.FileTree.Step

/-!
# Writing is all or nothing

Whatever writes and reads of a path are under way, and however their steps alternate and fail, the
path names what was there at first or the complete archive of the write that has moved its file
last. One step keeps what is known of a state (`Invariant.take`), so it is known of every state
that is reached (`invariant_after`), and reads find nothing else (`all_or_nothing`).
-/

namespace VoltageStats

open Archive (Storable membersOf)

namespace Traffic

variable {ι κ : Type} {t : Traffic ι} {tree : FileTree} {moved : List ι} {contents : Contents}
  {state : State ι κ} {i : ι} {j : κ} {location : Location}

/-! ## What is known of a state -/

/-- What can be seen at the path: what was there at first, or the archive of a write that has moved
its file there. -/
def Seen (t : Traffic ι) (tree : FileTree) (moved : List ι) (contents : Contents) : Prop :=
  tree.held? t.path = some contents ∨ ∃ i ∈ moved, contents = t.contents i

theorem Seen.mono {moved' : List ι} (h : t.Seen tree moved contents) (hmoved : moved ⊆ moved') :
    t.Seen tree moved' contents :=
  h.imp_right fun ⟨i, hi, hcontents⟩ => ⟨i, hmoved hi, hcontents⟩

theorem seen_of_latest (h : t.latest (tree.held? t.path) moved = some contents) :
    t.Seen tree moved contents := by
  unfold latest at h
  split at h
  · exact .inl h
  next i hlast => exact .inr ⟨i, List.mem_of_getLast? hlast, (Option.some.inj h).symm⟩

theorem latest_concat (initial : Option Contents) (moved : List ι) (i : ι) :
    t.latest initial (moved ++ [i]) = some (t.contents i) := by
  rw [latest, List.getLast?_concat]

theorem isSome_latest {initial : Option Contents} (h : initial.isSome ∨ moved ≠ []) :
    (t.latest initial moved).isSome := by
  unfold latest
  split
  next hlast => exact h.resolve_right fun hne => hne (List.getLast?_eq_none_iff.mp hlast)
  · rfl

/-- What is known of a read: it has seen what it has opened, and what it returns is loaded from
what it has seen. -/
def SoundReading (t : Traffic ι) (tree : FileTree) (moved : List ι) : Reading → Prop
  | .opened (.ok contents) => t.Seen tree moved contents
  | .ended (.ok s) => ∃ contents, t.Seen tree moved contents ∧ contents.load = .ok s
  | _ => True

theorem SoundReading.mono {moved' : List ι} {reading : Reading}
    (h : t.SoundReading tree moved reading) (hmoved : moved ⊆ moved') :
    t.SoundReading tree moved' reading := by
  cases reading with
  | waiting => trivial
  | opened result =>
      cases result with
      | error => trivial
      | ok contents => exact Seen.mono h hmoved
  | ended result =>
      cases result with
      | error => trivial
      | ok s =>
          obtain ⟨contents, hseen, hload⟩ := h
          exact ⟨contents, hseen.mono hmoved, hload⟩

/-- What is known of the states that come from a tree. -/
structure Invariant (t : Traffic ι) (tree : FileTree) (state : State ι κ) : Prop where
  held_eq : state.tree.held? t.path = t.latest (tree.held? t.path) state.moved
  sound : ∀ i, (t.writing i).Sound state.tree (state.phase i)
  /-- No two writes have the same temporary file. -/
  distinct : ∀ i k location, i ≠ k → (state.phase i).temporary? = some location →
    (state.phase k).temporary? ≠ some location
  mem_moved_iff : ∀ i, i ∈ state.moved ↔ state.phase i = .ended (.ok ())
  nodup_moved : state.moved.Nodup
  /-- Once there is a file that the path opens, there is one for good. -/
  exists_place : (∃ contents, tree.open? t.path = .ok contents) ∨ state.moved ≠ [] →
    ∃ location, state.tree.place t.path = .ok location
  reading : ∀ j, t.SoundReading tree state.moved (state.reading j)

theorem invariant_initial (t : Traffic ι) (tree : FileTree) :
    t.Invariant tree (.initial tree : State ι κ) where
  held_eq := rfl
  sound _ := trivial
  distinct _ _ _ _ hphase := by cases hphase
  mem_moved_iff i := by simp [State.initial]
  nodup_moved := List.nodup_nil
  exists_place := by
    rintro (⟨contents, hopen⟩ | hmoved)
    · obtain ⟨location, hplace, -⟩ := FileTree.open?_eq_ok_iff.mp hopen
      exact ⟨location, hplace⟩
    · exact absurd rfl hmoved
  reading _ := trivial

/-- A temporary file has another name than the file that the path names. -/
theorem getLast?_temporary_ne {tree : FileTree} {phase : Writing.Phase}
    (h : (t.writing i).Sound tree phase) (hphase : phase.temporary? = some location) :
    location.getLast? ≠ Path.fileName? t.path := by
  rw [(h.temporary hphase).1]
  exact (t.temporary_ne i).symm

/-! ## One step of a write -/

variable {tree' : FileTree} {phase' : Writing.Phase}

namespace Invariant

/-- There is a file if there was one that the path opens, or if one has been moved there. -/
theorem isSome_held? (h : t.Invariant tree state)
    (hopen : (∃ contents, tree.open? t.path = .ok contents) ∨ state.moved ≠ []) :
    (state.tree.held? t.path).isSome := by
  rw [h.held_eq]
  refine isSome_latest (hopen.imp_left ?_)
  rintro ⟨contents, hopen⟩
  exact Option.isSome_of_eq_some (FileTree.held?_of_open? hopen)

/-- What has been moved had passed every check. -/
theorem storable (h : t.Invariant tree state) (hi : i ∈ state.moved) :
    Storable (t.metadata i) (t.data i) := by
  have hsound := h.sound i
  rwa [(h.mem_moved_iff i).mp hi] at hsound

/-- A step leaves the temporary files of the other writes alone. -/
theorem file?_other (h : t.Invariant tree state)
    (hstep : (t.writing i).Step state.tree (state.phase i) tree' phase') {k : ι} (hne : k ≠ i)
    (hphase : (state.phase k).temporary? = some location) :
    tree'.file? location = state.tree.file? location := by
  have hthere := ((h.sound k).temporary hphase).2
  have hbefore : (state.phase i).temporary? ≠ some location := h.distinct k i location hne hphase
  have hafter : phase'.temporary? ≠ some location := by
    intro hafter
    rcases hstep.temporary?_cases hafter with hown | hnone
    · exact hbefore hown
    · rw [hnone] at hthere
      cases hthere
  exact hstep.file?_eq hbefore hafter fun _ => getLast?_temporary_ne (h.sound k) hphase

/-- A step that does not move a file to the path leaves what it names as it is. -/
theorem held?_of_not_isMove (h : t.Invariant tree state)
    (hstep : (t.writing i).Step state.tree (state.phase i) tree' phase')
    (hmove : ¬ (state.phase i).isMove phase') :
    tree'.held? t.path = state.tree.held? t.path := by
  have hlocation := FileTree.locationOf_congr hstep.workingDirectory_eq t.path
  cases hname : Path.fileName? t.path with
  | none => rw [FileTree.held?, FileTree.held?, hname]; rfl
  | some name =>
      have hlast := FileTree.getLast?_locationOf state.tree hname
      rw [FileTree.held?, FileTree.held?, hlocation]
      congr 1
      refine hstep.file?_eq ?_ ?_ fun hmoves => absurd hmoves hmove
      · exact fun hphase => getLast?_temporary_ne (h.sound i) hphase (hlast.trans hname.symm)
      · exact fun hphase =>
          getLast?_temporary_ne (hstep.sound (h.sound i)) hphase (hlast.trans hname.symm)

/-- The writes that are not the one that has taken a step are where they were. -/
theorem sound_advance [DecidableEq ι] (h : t.Invariant tree state)
    (hstep : (t.writing i).Step state.tree (state.phase i) tree' phase') (k : ι) :
    (t.writing k).Sound tree' ((state.advance i (tree', phase')).phase k) := by
  by_cases hk : k = i
  · subst hk
    simp only [State.advance, if_pos]
    exact hstep.sound (h.sound k)
  · simp only [State.advance, if_neg hk]
    exact (h.sound k).congr fun location hphase => h.file?_other hstep hk hphase

theorem distinct_advance [DecidableEq ι] (h : t.Invariant tree state)
    (hstep : (t.writing i).Step state.tree (state.phase i) tree' phase') {a b : ι} (hne : a ≠ b)
    (ha : ((state.advance i (tree', phase')).phase a).temporary? = some location) :
    ((state.advance i (tree', phase')).phase b).temporary? ≠ some location := by
  -- A temporary file that the write has since this step was nobody's before it.
  have hother : ∀ k, k ≠ i → (state.phase k).temporary? = some location →
      phase'.temporary? ≠ some location := by
    intro k hk hphase hafter
    rcases hstep.temporary?_cases hafter with hown | hnone
    · exact h.distinct k i location hk hphase hown
    · have hthere := ((h.sound k).temporary hphase).2
      rw [hnone] at hthere
      cases hthere
  simp only [State.advance] at ha ⊢
  by_cases hai : a = i
  · rw [if_pos hai] at ha
    rw [if_neg fun hbi => hne (hai.trans hbi.symm)]
    exact fun hb => hother b (fun hbi => hne (hai.trans hbi.symm)) hb ha
  · rw [if_neg hai] at ha
    by_cases hbi : b = i
    · rw [if_pos hbi]
      exact hother a hai ha
    · rw [if_neg hbi]
      exact h.distinct a b location hne ha

theorem mem_moved_advance [DecidableEq ι] (h : t.Invariant tree state)
    (hstep : (t.writing i).Step state.tree (state.phase i) tree' phase') (k : ι) :
    k ∈ (state.advance i (tree', phase')).moved ↔
      (state.advance i (tree', phase')).phase k = .ended (.ok ()) := by
  have hmem : k ∈ (state.advance i (tree', phase')).moved ↔
      k ∈ state.moved ∨ k = i ∧ (state.phase i).isMove phase' := by
    simp only [State.advance]
    split <;> simp [*]
  rw [hmem, h.mem_moved_iff]
  by_cases hk : k = i
  · subst hk
    simp only [State.advance, if_pos, true_and]
    exact hstep.ended_ok_iff.symm
  · simp [State.advance, hk]

/-- A step of a write keeps what is known. -/
theorem advance [DecidableEq ι] (h : t.Invariant tree state)
    (hstep : (t.writing i).Step state.tree (state.phase i) tree' phase') :
    t.Invariant tree (state.advance i (tree', phase')) where
  held_eq := by
    by_cases hmove : (state.phase i).isMove phase'
    · simp only [State.advance, if_pos hmove, latest_concat]
      exact (hstep.held?_of_isMove (h.sound i) hmove).1
    · simp only [State.advance, if_neg hmove]
      exact (h.held?_of_not_isMove hstep hmove).trans h.held_eq
  sound := h.sound_advance hstep
  distinct _ _ _ := h.distinct_advance hstep
  mem_moved_iff := h.mem_moved_advance hstep
  nodup_moved := by
    by_cases hmove : (state.phase i).isMove phase'
    · have hnotMem : i ∉ state.moved := by
        rw [h.mem_moved_iff]
        intro hended
        rw [hended] at hmove
        cases hmove
      simp only [State.advance, if_pos hmove]
      rw [← List.concat_eq_append]
      exact h.nodup_moved.concat hnotMem
    · simp only [State.advance, if_neg hmove]
      exact h.nodup_moved
  exists_place := by
    intro hopen
    by_cases hmove : (state.phase i).isMove phase'
    · exact (hstep.held?_of_isMove (h.sound i) hmove).2.1
    · simp only [State.advance, if_neg hmove] at hopen ⊢
      obtain ⟨location, hplace⟩ := h.exists_place hopen
      have hfile := h.isSome_held? hopen
      rw [FileTree.held?_of_place hplace] at hfile
      exact ⟨location, hstep.place hfile hplace⟩
  reading j := by
    refine (h.reading j).mono ?_
    simp only [State.advance]
    split
    · exact List.subset_append_left _ _
    · exact List.Subset.refl _

/-! ## One step of a read -/

/-- A step of a read finds what is there. -/
theorem reading_step (h : t.Invariant tree state) (isFailing : Bool) (j : κ) :
    t.SoundReading tree state.moved ((state.reading j).step t.path isFailing state.tree) := by
  have hreading := h.reading j
  cases hphase : state.reading j with
  | waiting =>
      cases isFailing with
      | true => trivial
      | false =>
          show t.SoundReading tree state.moved (.opened (state.tree.open? t.path))
          cases hopen : state.tree.open? t.path with
          | error fault => trivial
          | ok contents => exact seen_of_latest (h.held_eq ▸ FileTree.held?_of_open? hopen)
  | opened result =>
      rw [hphase] at hreading
      cases isFailing with
      | true => trivial
      | false =>
          show t.SoundReading tree state.moved (.ended (readOpened t.path result))
          cases hread : readOpened t.path result with
          | error error => trivial
          | ok s =>
              cases result with
              | error fault => cases fault <;> cases hread
              | ok contents =>
                  rw [readOpened, except_mapError_eq_ok_iff] at hread
                  exact ⟨contents, hreading, hread⟩
  | ended result =>
      rw [hphase] at hreading
      exact hreading

/-- What is loaded from what has been seen is what was there at first or what one of the writes has
moved to the path. -/
theorem load_of_seen (h : t.Invariant tree state) {s : Statistics}
    (hseen : t.Seen tree state.moved contents) (hload : contents.load = .ok s) :
    (∃ contents, tree.held? t.path = some contents ∧ contents.load = .ok s) ∨
      ∃ i ∈ state.moved, s = ⟨(t.metadata i).withVersion currentVersion, t.data i⟩ := by
  rcases hseen with hheld | ⟨i, hi, rfl⟩
  · exact .inl ⟨contents, hheld, hload⟩
  · refine .inr ⟨i, hi, ?_⟩
    rw [contents, Contents.load_archive, Archive.load_save (h.storable hi)] at hload
    exact (Except.ok.inj hload).symm

/-! ## Steps and runs -/

variable [DecidableEq ι] [DecidableEq κ]

/-- Each step keeps what is known. -/
theorem take (h : t.Invariant tree state) (action : Action ι κ) :
    t.Invariant tree (t.take state action) := by
  cases action with
  | write i isFailing =>
      exact h.advance (Writing.step_spec (t.writing i) isFailing state.tree (state.phase i))
  | read j isFailing =>
      refine ⟨h.held_eq, h.sound, h.distinct, h.mem_moved_iff, h.nodup_moved, h.exists_place, ?_⟩
      intro k
      by_cases hk : k = j
      · simp only [Traffic.take, if_pos hk]
        exact h.reading_step isFailing j
      · simp only [Traffic.take, if_neg hk]
        exact h.reading k

end Invariant

variable [DecidableEq ι] [DecidableEq κ]

theorem after_concat (t : Traffic ι) (tree : FileTree) (actions : List (Action ι κ))
    (action : Action ι κ) :
    t.after tree (actions ++ [action]) = t.take (t.after tree actions) action := by
  rw [after, after, List.foldl_append, List.foldl_cons, List.foldl_nil]

/-- What is known holds of every state that is reached, by any steps in any order. -/
theorem invariant_after (t : Traffic ι) (tree : FileTree) (actions : List (Action ι κ)) :
    t.Invariant tree (t.after tree actions) := by
  induction actions using List.reverseRecOn with
  | nil => exact invariant_initial t tree
  | append_singleton actions action ih =>
      rw [after_concat]
      exact ih.take action

theorem after_append (t : Traffic ι) (tree : FileTree) (before rest : List (Action ι κ)) :
    t.after tree (before ++ rest) = rest.foldl t.take (t.after tree before) :=
  List.foldl_append

/-! ## Writes that have ended -/

/-- Writing that has ended has ended for good. -/
theorem phase_foldl_of_ended {result : Except WriteError Unit}
    (hended : state.phase i = .ended result) (actions : List (Action ι κ)) :
    (actions.foldl t.take state).phase i = .ended result := by
  induction actions generalizing state with
  | nil => exact hended
  | cons action actions ih =>
      refine ih ?_
      cases action with
      | read j isFailing => exact hended
      | write k isFailing =>
          by_cases hk : i = k
          · subst hk
            simp only [take, State.advance, if_pos, hended]
            rfl
          · simp only [take, State.advance, if_neg hk]
            exact hended

/-- A step of a write that fails, now or later, leaves what the path names as it is. -/
theorem held?_of_ended_error {before rest : List (Action ι κ)} {isFailing : Bool}
    {error : WriteError}
    (hended : (t.after tree (before ++ .write i isFailing :: rest)).phase i =
      .ended (.error error)) :
    (t.after tree (before ++ [.write i isFailing])).tree.held? t.path =
      (t.after tree before).tree.held? t.path := by
  have hstep := Writing.step_spec (t.writing i) isFailing (t.after tree before).tree
    ((t.after tree before).phase i)
  rw [after_concat]
  refine (invariant_after t tree before).held?_of_not_isMove hstep fun hmove => ?_
  -- Had the step moved the file the write would have succeeded, and for good.
  have hmoved : (t.after tree (before ++ [.write i isFailing])).phase i = .ended (.ok ()) := by
    rw [after_concat]
    simp only [take, State.advance, if_pos]
    exact hstep.ended_ok_iff.mpr (.inr hmove)
  rw [List.append_cons, after_append, phase_foldl_of_ended hmoved rest] at hended
  cases hended

/-- A write whose header and arrays do not fit together does nothing in the tree, and ends with the
reason. -/
theorem take_of_not_valid (h : t.Invariant tree state) (hinvalid : ¬ (t.writing i).Valid)
    (isFailing : Bool) :
    (t.take state (.write i isFailing)).tree = state.tree ∧
      ∃ error, (t.take state (.write i isFailing)).phase i =
        .ended (.error (.inconsistent error)) := by
  have hsound := h.sound i
  simp only [take, State.advance, if_pos]
  cases hphase : state.phase i with
  | unchecked =>
      obtain ⟨error, hstep⟩ :=
        Writing.step_unchecked_of_not_valid hinvalid isFailing state.tree
      rw [hstep]
      exact ⟨rfl, error, rfl⟩
  | checked => exact absurd (hphase ▸ hsound).1 hinvalid
  | prepared => exact absurd (hphase ▸ hsound).1 hinvalid
  | filling => exact absurd (hphase ▸ hsound).1 hinvalid
  | complete => exact absurd (Writing.valid_of_storable (hphase ▸ hsound).1) hinvalid
  | ended result =>
      rw [hphase] at hsound
      rcases result with (error | _) | ⟨⟩
      · exact ⟨rfl, error, rfl⟩
      · exact absurd hsound hinvalid
      · exact absurd (Writing.valid_of_storable hsound) hinvalid

theorem phase_of_not_valid {actions : List (Action ι κ)} {isFailing : Bool}
    (hinvalid : ¬ (t.writing i).Valid) (hmem : .write i isFailing ∈ actions) :
    ∃ error, (t.after tree actions).phase i = .ended (.error (.inconsistent error)) := by
  obtain ⟨before, rest, rfl⟩ := List.append_of_mem hmem
  obtain ⟨-, error, hended⟩ :=
    take_of_not_valid (invariant_after t tree before) hinvalid isFailing
  refine ⟨error, ?_⟩
  rw [after_append, List.foldl_cons]
  exact phase_foldl_of_ended hended rest

/-- A write whose header and arrays fit together never ends because they do not. -/
theorem phase_ne_inconsistent (hvalid : (t.writing i).Valid) (actions : List (Action ι κ))
    (error : StatsError) :
    (t.after tree actions).phase i ≠ .ended (.error (.inconsistent error)) := by
  intro hended
  have hsound := (invariant_after t tree actions).sound i
  rw [hended] at hsound
  exact hsound hvalid

/-! ## Alone -/

/-- A write that nothing else goes on beside takes the steps of writing, one after the other. -/
theorem run_eq_foldl (t : Traffic ι) (state : State ι κ) (i : ι) (steps : Nat) :
    (t.writing i).run steps state.tree (state.phase i) =
      (((List.replicate steps (.write i false)).foldl t.take state).tree,
        match ((List.replicate steps (.write i false)).foldl t.take state).phase i with
        | .ended result => result
        | _ => .error .unwritable) := by
  induction steps generalizing state with
  | zero =>
      simp only [List.replicate_zero, List.foldl_nil]
      cases state.phase i <;> rfl
  | succ steps ih =>
      have hphase : (t.take state (.write i false)).phase i =
          ((t.writing i).step false state.tree (state.phase i)).2 := by
        simp only [take, State.advance, if_pos]
      rw [Writing.run_succ, ← hphase, List.replicate_succ, List.foldl_cons]
      exact ih (t.take state (.write i false))

/-- A read that takes its steps one after the other reads the tree that is there. -/
theorem reading_eq_read (hwaiting : state.reading j = .waiting) :
    (([.read j false, .read j false] : List (Action ι κ)).foldl t.take state).reading j =
      .ended (state.tree.read t.path) := by
  simp only [List.foldl_cons, List.foldl_nil, take, if_pos, hwaiting]
  rfl

/-- A read that takes no step waits. -/
theorem reading_eq_waiting {actions : List (Action ι κ)}
    (hnone : ∀ isFailing, .read j isFailing ∉ actions) :
    (t.after tree actions).reading j = .waiting := by
  induction actions using List.reverseRecOn with
  | nil => rfl
  | append_singleton actions action ih =>
      simp only [List.mem_append, List.mem_singleton, not_or] at hnone
      have hwaiting := ih fun isFailing => (hnone isFailing).1
      rw [after_concat]
      cases action with
      | write i isFailing => exact hwaiting
      | read k isFailing =>
          have hne : j ≠ k := fun heq => (hnone isFailing).2 (heq ▸ rfl)
          simp only [take, if_neg hne]
          exact hwaiting

/-! ## All or nothing -/

/-- Writing is all or nothing, however the steps of writes and reads of a path alternate and
whichever of them fail. The path names what was there at first, or the complete archive of the write
that has moved its file last. The writes that have done so are those that have succeeded, once each,
and their headers and arrays have passed every check. What the path opens is what it names, and it
opens a file from when it first has done so or a file was moved there. A step of a write that fails,
now or later, leaves what the path names as it is. A read that succeeds returns the statistics that
were there at first or those of one write. And a write that does not pass the checks does nothing in
the tree. -/
theorem all_or_nothing (t : Traffic ι) (tree : FileTree) (actions : List (Action ι κ)) :
    ((t.after tree actions).tree.held? t.path =
        t.latest (tree.held? t.path) (t.after tree actions).moved ∧
      (t.after tree actions).moved.Nodup ∧
      ∀ i, i ∈ (t.after tree actions).moved ↔
        (t.after tree actions).phase i = .ended (.ok ())) ∧
    (∀ i ∈ (t.after tree actions).moved, (t.writing i).Valid) ∧
    ((∀ contents, (t.after tree actions).tree.open? t.path = .ok contents →
        (t.after tree actions).tree.held? t.path = some contents) ∧
      ((∃ contents, tree.open? t.path = .ok contents) ∨ (t.after tree actions).moved ≠ [] →
        ∃ contents, (t.after tree actions).tree.open? t.path = .ok contents)) ∧
    (∀ before i isFailing rest error, actions = before ++ .write i isFailing :: rest →
      (t.after tree actions).phase i = .ended (.error error) →
        (t.after tree (before ++ [.write i isFailing])).tree.held? t.path =
          (t.after tree before).tree.held? t.path) ∧
    (∀ j s, (t.after tree actions).reading j = .ended (.ok s) →
      (∃ contents, tree.held? t.path = some contents ∧ contents.load = .ok s) ∨
        ∃ i ∈ (t.after tree actions).moved,
          s = ⟨(t.metadata i).withVersion currentVersion, t.data i⟩) ∧
    (∀ i, ¬ (t.writing i).Valid →
      (∀ (before : List (Action ι κ)) isFailing,
        (t.after tree (before ++ [.write i isFailing])).tree = (t.after tree before).tree) ∧
      ∀ isFailing, .write i isFailing ∈ actions →
        ∃ error, (t.after tree actions).phase i = .ended (.error (.inconsistent error))) := by
  have h := invariant_after t tree actions
  refine ⟨⟨h.held_eq, h.nodup_moved, h.mem_moved_iff⟩, fun i hi => ?_,
    ⟨fun _ => FileTree.held?_of_open?, fun hopen => ?_⟩, ?_, fun j s hread => ?_,
    fun i hinvalid => ⟨fun before isFailing => ?_, fun isFailing => phase_of_not_valid hinvalid⟩⟩
  · exact Writing.valid_of_storable (h.storable hi)
  · obtain ⟨contents, hheld⟩ := Option.isSome_iff_exists.mp (h.isSome_held? hopen)
    obtain ⟨location, hplace⟩ := h.exists_place hopen
    exact ⟨contents, FileTree.open?_of_held? hplace hheld⟩
  · rintro before i isFailing rest error rfl hended
    exact held?_of_ended_error hended
  · have hreading := h.reading j
    rw [hread] at hreading
    obtain ⟨contents, hseen, hload⟩ := hreading
    exact h.load_of_seen hseen hload
  · rw [after_concat]
    exact (take_of_not_valid (invariant_after t tree before) hinvalid isFailing).1

/-- Zeros, written twice to one file. -/
def pair : Traffic Bool where
  path := "one/zeros.npz"
  metadata _ := .single
  data _ := FileTree.zeros .single
  temporary isFirst := if isFirst then "first" else "second"
  temporary_ne := by decide

/-- The two writes come to complete files side by side, and the first moves its own. -/
def pairActions : List (Action Bool Unit) :=
  (List.replicate 26 [.write true false, .write false false]).flatten ++ [.write true false]

/-- Of two writes the first has moved its file when the other fails to. The file stays, and is read
as it was written. -/
theorem all_or_nothing_pair :
    let actions := pairActions ++ [.write false true]
    (pair.after .empty actions).moved = [true] ∧
      (pair.after .empty actions).tree.held? pair.path = some (pair.contents true) ∧
      (pair.after .empty (actions ++ [.read () false, .read () false])).reading () =
        .ended (.ok ⟨.single, FileTree.zeros .single⟩) := by
  intro actions
  have hmoved : (pair.after .empty actions).moved = [true] := by decide +kernel
  obtain ⟨⟨hlatest, -, -⟩, -, ⟨hnamed, hopens⟩, -⟩ := all_or_nothing pair .empty actions
  have hheld : (pair.after .empty actions).tree.held? pair.path = some (pair.contents true) := by
    rw [hlatest, hmoved]
    exact latest_concat _ [] true
  obtain ⟨contents, hopen⟩ := hopens (.inr (by simp [hmoved]))
  obtain rfl := Option.some.inj (hheld.symm.trans (hnamed contents hopen))
  have hstorable : Storable (pair.metadata true) (pair.data true) :=
    (invariant_after pair .empty actions).storable (by simp [hmoved])
  have hwaiting : (pair.after .empty actions).reading () = .waiting :=
    reading_eq_waiting fun isFailing => by simp [actions, pairActions]
  refine ⟨hmoved, hheld, ?_⟩
  rw [after_append, reading_eq_read hwaiting, FileTree.read, hopen, readOpened,
    Traffic.contents, Contents.load_archive, Archive.load_save hstorable]
  rfl

end Traffic

end VoltageStats
