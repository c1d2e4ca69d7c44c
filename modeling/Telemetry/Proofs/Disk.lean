import Telemetry.Disk
import Telemetry.Proofs.List
import Mathlib.Data.List.Basic

/-!
# Opening a file again

Directories stay where they are made.  A file that was opened by its path can
therefore be opened by it again, whatever was written to it meanwhile: the same
place is found and nothing has to be made.
-/

namespace Telemetry

namespace Disk

/-! ## What stands at a place -/

theorem node?_put {d : Disk} {place : Place} (hplace : place ≠ [])
    (node : DiskNode) (other : Place) :
    (d.put place node).node? other = if other = place then some node
      else d.node? other := by
  by_cases hroot : other = []
  · subst hroot
    rw [if_neg (Ne.symm hplace)]
    rfl
  · by_cases hsame : other = place
    · subst hsame
      simp [node?, put, hroot]
    · have hne : (other == place) = false := by simpa using hsame
      rw [if_neg hsame]
      simp [node?, put, hroot, List.lookup_cons, hne, lookup_filter_ne hsame]

theorem contents?_put {d : Disk} {place : Place} (hplace : place ≠ [])
    (bytes : Bytes) :
    (d.put place (.file bytes)).contents? place = some bytes := by
  simp [contents?, node?_put hplace]

theorem node?_of_contents? {d : Disk} {place : Place} {bytes : Bytes}
    (h : d.contents? place = some bytes) :
    d.node? place = some (.file bytes) := by
  unfold contents? at h
  split at h
  · next hnode =>
      rw [hnode, Option.some.inj h]
  · cases h

theorem ne_nil_of_node? {d : Disk} {place : Place}
    (h : d.node? place ≠ some .directory) :
    place ≠ [] := by
  rintro rfl
  exact h rfl

def KeepsDirectories (d d' : Disk) : Prop :=
  ∀ place, d.node? place = some .directory → d'.node? place = some .directory

theorem keepsDirectories_put {d : Disk} {place : Place} (node : DiskNode)
    (h : d.node? place ≠ some .directory) :
    KeepsDirectories d (d.put place node) := by
  intro other hother
  rw [node?_put (ne_nil_of_node? h), if_neg]
  · exact hother
  · rintro rfl
    exact h hother

/-! ## Walking -/

theorem enter_eq_ok {d : Disk} {directory place : Place} {name : String} :
    d.enter directory name = .ok place ↔
      below directory name = .ok place ∧ d.node? place = some .directory := by
  unfold enter
  cases hbelow : below directory name with
  | error e => simp [bind, Except.bind]
  | ok p =>
      simp only [bind, Except.bind, Except.ok.injEq]
      constructor
      · intro h
        split at h
        · next hnode =>
            obtain rfl : p = place := by simpa [pure, Except.pure] using h
            exact ⟨rfl, hnode⟩
        · cases h
        · cases h
      · rintro ⟨rfl, hnode⟩
        rw [hnode]
        rfl

theorem foldlM_enter {d d' : Disk} (hkeeps : KeepsDirectories d d')
    {names : List String} {start place : Place}
    (h : names.foldlM (enter d) start = .ok place) :
    names.foldlM (enter d') start = .ok place := by
  induction names generalizing start with
  | nil => exact h
  | cons name names ih =>
      rw [List.foldlM_cons] at h ⊢
      cases hfirst : d.enter start name with
      | error e => simp [hfirst, bind, Except.bind] at h
      | ok next =>
          obtain ⟨hbelow, hnode⟩ := enter_eq_ok.mp hfirst
          have hfirst' : d'.enter start name = .ok next :=
            enter_eq_ok.mpr ⟨hbelow, hkeeps next hnode⟩
          rw [hfirst'] at *
          rw [hfirst] at h
          exact ih h

/-- A way through directories stays open. -/
theorem walk_of_keepsDirectories {d d' : Disk} (hkeeps : KeepsDirectories d d')
    {names : List String} {place : Place} (h : d.walk names = .ok place) :
    d'.walk names = .ok place :=
  foldlM_enter hkeeps h

theorem walk_append {d : Disk} (names : List String) (name : String) :
    d.walk (names ++ [name]) = (d.walk names).bind fun above =>
      d.enter above name := by
  unfold walk
  rw [List.foldlM_append]
  cases names.foldlM (enter d) [] with
  | error e => rfl
  | ok above =>
      simp [List.foldlM_cons, bind, Except.bind, pure, Except.pure]
      cases d.enter above name <;> rfl

theorem hasDirectory_iff {d : Disk} {names : List String} :
    d.hasDirectory names = true ↔ ∃ place, d.walk names = .ok place := by
  unfold hasDirectory
  cases d.walk names with
  | error e => simp [Except.isOk, Except.toBool]
  | ok place => simp [Except.isOk, Except.toBool]

/-! ## Making directories -/

/-- A directory that is there is not made. -/
theorem makeDirectory_of_hasDirectory {d : Disk} {names : List String}
    (h : d.hasDirectory names = true) :
    d.makeDirectory names = .error .alreadyExists := by
  obtain ⟨place, hwalk⟩ := hasDirectory_iff.mp h
  unfold makeDirectory
  rcases List.eq_nil_or_concat names with rfl | ⟨init, name, rfl⟩
  · rfl
  · rw [List.concat_eq_append, walk_append] at hwalk
    rw [List.concat_eq_append, List.dropLast_concat, List.getLast?_concat]
    cases habove : d.walk init with
    | error e => simp [habove, Except.bind] at hwalk
    | ok above =>
        rw [habove] at hwalk
        obtain ⟨hbelow, hnode⟩ := enter_eq_ok.mp hwalk
        simp [bind, Except.bind, hbelow, hnode, throw, throwThe,
          MonadExceptOf.throw]

theorem makeDirectories_of_hasDirectory {d : Disk} {names : List String}
    (h : d.hasDirectory names.reverse = true) :
    d.makeDirectories names = .ok d := by
  cases names with
  | nil => rfl
  | cons name above =>
      unfold makeDirectories
      simp only [makeDirectory_of_hasDirectory h, h, if_true]

/-! ## Opening files -/

theorem openFile_eq_ok {d d' : Disk} {r : Route} {place : Place}
    (h : d.openFile r = .ok (place, d')) :
    r.dotted = false ∧ r.slashed = false ∧
      (∃ directory, d.walk r.names.dropLast = .ok directory ∧
        below directory (r.names.getLast?.getD "") = .ok place) ∧
      ((∃ bytes, d.node? place = some (.file bytes) ∧ d' = d) ∨
        d.node? place = none ∧ d' = d.put place (.file [])) := by
  unfold openFile at h
  cases hdotted : r.dotted with
  | true =>
      simp only [hdotted, if_true, bind, Except.bind] at h
      split at h <;> cases h
  | false =>
      cases hwalk : d.walk r.names.dropLast with
      | error e => simp [hdotted, hwalk, bind, Except.bind] at h
      | ok directory =>
          cases hslashed : r.slashed with
          | true =>
              simp [hdotted, hwalk, hslashed, bind, Except.bind, throw,
                throwThe, MonadExceptOf.throw] at h
          | false =>
              cases hbelow : below directory (r.names.getLast?.getD "") with
              | error e =>
                  simp [hdotted, hwalk, hslashed, hbelow, bind, Except.bind]
                    at h
              | ok found =>
                  simp only [hdotted, hwalk, hslashed, hbelow, bind,
                    Except.bind, pure, Except.pure, Bool.false_eq_true,
                    if_false] at h
                  split at h
                  · cases h
                  · next bytes hnode =>
                      cases h
                      exact ⟨rfl, rfl, ⟨directory, rfl, hbelow⟩,
                        Or.inl ⟨bytes, hnode, rfl⟩⟩
                  · next hnode =>
                      cases h
                      exact ⟨rfl, rfl, ⟨directory, rfl, hbelow⟩,
                        Or.inr ⟨hnode, rfl⟩⟩

theorem openFile_of_file {d : Disk} {r : Route} {directory place : Place}
    {bytes : Bytes} (hdotted : r.dotted = false) (hslashed : r.slashed = false)
    (hwalk : d.walk r.names.dropLast = .ok directory)
    (hbelow : below directory (r.names.getLast?.getD "") = .ok place)
    (hnode : d.node? place = some (.file bytes)) :
    d.openFile r = .ok (place, d) := by
  simp [openFile, hdotted, hslashed, hwalk, hbelow, hnode, bind, Except.bind,
    pure, Except.pure]

end Disk

namespace SnapshotFile

open Disk

/-- The file of a path stands open at the place to which the path leads. -/
structure Settled (d : Disk) (path : String) (f : SnapshotFile) : Prop where
  isOpen : f.isOpen = true
  path_eq : f.path = path
  exists_contents : ∃ bytes, d.contents? f.place = some bytes
  exists_way : ∃ r directory, route path = .ok r ∧ r.dotted = false ∧
    r.slashed = false ∧
    d.walk r.names.dropLast = .ok directory ∧
    below directory (r.names.getLast?.getD "") = .ok f.place

theorem openAt_eq_ok {d d' : Disk} {path : String} {f : SnapshotFile}
    (h : openAt d path = .ok (f, d')) :
    ∃ r place, ∃ d₁ : Disk, route path = .ok r ∧
      d₁.openFile r = .ok (place, d') ∧
      f = ⟨path, place, true⟩ := by
  unfold openAt at h
  cases hroute : route path with
  | error e => simp [hroute, bind, Except.bind] at h
  | ok r =>
      simp only [hroute, bind, Except.bind] at h
      cases hmade : d.makeDirectories r.names.dropLast.reverse with
      | error e => simp [hmade] at h
      | ok d₁ =>
          simp only [hmade] at h
          cases hopen : d₁.openFile r with
          | error e => simp [hopen] at h
          | ok opened =>
              obtain ⟨place, d₂⟩ := opened
              simp only [hopen, pure, Except.pure] at h
              cases h
              exact ⟨r, place, d₁, rfl, hopen, rfl⟩

/-- Opening a file settles it. -/
theorem settled_of_openAt {d d' : Disk} {path : String} {f : SnapshotFile}
    (h : openAt d path = .ok (f, d')) : Settled d' path f := by
  obtain ⟨r, place, d₁, hroute, hopen, rfl⟩ := openAt_eq_ok h
  obtain ⟨hdotted, hslashed, ⟨directory, hwalk, hbelow⟩, hfile⟩ :=
    openFile_eq_ok hopen
  obtain ⟨⟨bytes, hnode⟩, hkeeps⟩ :
    (∃ bytes, d'.node? place = some (.file bytes)) ∧
      KeepsDirectories d₁ d' := by
    rcases hfile with ⟨bytes, hnode, rfl⟩ | ⟨hnone, rfl⟩
    · exact ⟨⟨bytes, hnode⟩, fun _ h => h⟩
    · have hplace : place ≠ [] := ne_nil_of_node? (d := d₁) (by simp [hnone])
      refine ⟨⟨[], ?_⟩, keepsDirectories_put _ (by simp [hnone])⟩
      rw [node?_put hplace, if_pos rfl]
  exact ⟨rfl, rfl, ⟨bytes, by simp [contents?, hnode]⟩,
    ⟨r, directory, hroute, hdotted, hslashed,
      walk_of_keepsDirectories hkeeps hwalk, hbelow⟩⟩

namespace Settled

variable {d : Disk} {path : String} {f : SnapshotFile}

theorem node?_ne_directory (h : Settled d path f) :
    d.node? f.place ≠ some .directory := by
  obtain ⟨bytes, hbytes⟩ := h.exists_contents
  simp [node?_of_contents? hbytes]

/-- A settled file is opened again at its place, and nothing changes. -/
theorem openAt_eq (h : Settled d path f) : openAt d path = .ok (f, d) := by
  obtain ⟨bytes, hbytes⟩ := h.exists_contents
  obtain ⟨r, directory, hroute, hdotted, hslashed, hwalk, hbelow⟩ :=
    h.exists_way
  have hmade : d.makeDirectories r.names.dropLast.reverse = .ok d := by
    apply makeDirectories_of_hasDirectory
    rw [List.reverse_reverse]
    exact hasDirectory_iff.mpr ⟨directory, hwalk⟩
  have hopened : d.openFile r = .ok (f.place, d) :=
    openFile_of_file hdotted hslashed hwalk hbelow (node?_of_contents? hbytes)
  have hfile : (⟨path, f.place, true⟩ : SnapshotFile) = f := by
    rw [← h.path_eq, ← h.isOpen]
  simp [openAt, hroute, hmade, hopened, hfile, bind, Except.bind, pure,
    Except.pure]

theorem contents?_put (h : Settled d path f) (bytes : Bytes) :
    (d.put f.place (.file bytes)).contents? f.place = some bytes :=
  Disk.contents?_put (ne_nil_of_node? h.node?_ne_directory) bytes

/-- Writing to a settled file leaves it settled. -/
theorem put (h : Settled d path f) (bytes : Bytes) :
    Settled (d.put f.place (.file bytes)) path f := by
  obtain ⟨r, directory, hroute, hdotted, hslashed, hwalk, hbelow⟩ :=
    h.exists_way
  have hkeeps : KeepsDirectories d (d.put f.place (.file bytes)) :=
    keepsDirectories_put _ h.node?_ne_directory
  exact ⟨h.isOpen, h.path_eq, ⟨bytes, h.contents?_put bytes⟩,
    ⟨r, directory, hroute, hdotted, hslashed,
      walk_of_keepsDirectories hkeeps hwalk, hbelow⟩⟩

end Settled

end SnapshotFile

end Telemetry
