import Telemetry.Proofs.Disk
import Telemetry.Proofs.Result

/-!
# A file as a cell

A file is saved, emptied and read by the handle that has it open, while others
read and rewrite it by its path.  All of them see one cell, which holds the
bytes that were put into it last.  The offset of the handle may stand anywhere,
also behind the end of a file that was rewritten meanwhile: every access of the
handle rewinds first, and every save cuts off what it replaces.
-/

namespace Telemetry

/-- What is done with a file: by its handle, or from outside by its path. -/
inductive FileAction where
  | reopen
  | load
  | save (bytes : Bytes)
  | clear
  | close
  /-- The file is read from outside. -/
  | look
  /-- The file is written from outside. -/
  | rewrite (bytes : Bytes)
  deriving DecidableEq, Repr

/-- What an action answers: bytes where the file is read, and
nothing else otherwise. -/
abbrev FileAnswer := Except IoError (Option Bytes)

namespace FileAction

/-- Bytes that an action puts into the file. -/
def put? : FileAction → Option Bytes
  | .save bytes => some bytes
  | .clear => some []
  | .rewrite bytes => some bytes
  | _ => none

/-- The bytes that actions have put into the file, by their answers. -/
def puts (actions : List FileAction) (answers : List FileAnswer) : List Bytes :=
  (actions.zip answers).filterMap fun (a, answer) => if answer.isOk then a.put?
    else none

/-! ## Runs -/

variable {σ τ : Type}

/-- The answer of a change that may fail, and the state after it. -/
def settle (s : σ) : Except IoError σ → FileAnswer × σ
  | .ok s => (.ok none, s)
  | .error e => (.error e, s)

/-- The answers to actions in order, and the state after them. -/
def run (step : σ → FileAction → FileAnswer × σ) (s : σ) :
    List FileAction → List FileAnswer × σ
  | [] => ([], s)
  | a :: rest =>
    let (answer, s) := step s a
    let (answers, s) := run step s rest
    (answer :: answers, s)

/-- An action by a handle, or on the file of a path. -/
def byHandle (path : String) :
    FileHandle × Disk → FileAction → FileAnswer × (FileHandle × Disk)
  | (h, d), .reopen => settle (h, d) (FileHandle.openAt d path)
  | (h, d), .load =>
    match h.load d with
    | .ok (bytes, h) => (.ok (some bytes), (h, d))
    | .error e => (.error e, (h, d))
  | (h, d), .save bytes => settle (h, d) (h.save bytes d)
  | (h, d), .clear => settle (h, d) (h.clear d)
  | (h, d), .close => (.ok none, (h.close, d))
  | (h, d), .look => ((d.read path).map some, (h, d))
  | (h, d), .rewrite bytes => settle (h, d) ((d.write path bytes).map (h, ·))

/-- An action by a snapshot file, which keeps no offset. -/
def bySnapshot (path : String) :
    SnapshotFile × Disk → FileAction → FileAnswer × (SnapshotFile × Disk)
  | (f, d), .reopen => settle (f, d) (SnapshotFile.openAt d path)
  | (f, d), .load => ((f.load d).map some, (f, d))
  | (f, d), .save bytes => settle (f, d) ((f.save bytes d).map (f, ·))
  | (f, d), .clear => settle (f, d) ((f.clear d).map (f, ·))
  | (f, d), .close => (.ok none, (f.close, d))
  | (f, d), .look => ((d.read path).map some, (f, d))
  | (f, d), .rewrite bytes => settle (f, d) ((d.write path bytes).map (f, ·))

/-- Steps from states that correspond give the same answer and
states that correspond. -/
def Simulates (f : σ → FileAction → FileAnswer × σ)
    (g : τ → FileAction → FileAnswer × τ) (R : σ → τ → Prop) : Prop :=
  ∀ s t a, R s t → (f s a).1 = (g t a).1 ∧ R (f s a).2 (g t a).2

theorem Simulates.run {f : σ → FileAction → FileAnswer × σ}
    {g : τ → FileAction → FileAnswer × τ} {R : σ → τ → Prop}
    (h : Simulates f g R) {s : σ} {t : τ} (hst : R s t)
    (actions : List FileAction) :
    (run f s actions).1 = (run g t actions).1 ∧
      R (run f s actions).2 (run g t actions).2 := by
  induction actions generalizing s t with
  | nil => exact ⟨rfl, hst⟩
  | cons a rest ih =>
      obtain ⟨hanswer, hnext⟩ := h s t a hst
      obtain ⟨hanswers, hlast⟩ := ih hnext
      refine ⟨?_, hlast⟩
      change (f s a).1 :: _ = (g t a).1 :: _
      rw [hanswer, hanswers]

end FileAction

/-- A file as all that use it see it. -/
structure FileCell where
  contents : Bytes
  isOpen : Bool
  deriving DecidableEq, Repr

namespace FileCell

open FileAction

/-- An action on the cell; a handle that is closed changes nothing until the
file is opened again. -/
def step (c : FileCell) : FileAction → FileAnswer × FileCell
  | .reopen => (.ok none, { c with isOpen := true })
  | .load =>
    if c.isOpen then (.ok (some c.contents), c) else (.error .closed, c)
  | .save bytes =>
    if c.isOpen then (.ok none, { c with contents := bytes })
      else (.error .closed, c)
  | .clear =>
    if c.isOpen then (.ok none, { c with contents := [] })
      else (.error .closed, c)
  | .close => (.ok none, { c with isOpen := false })
  | .look => (.ok (some c.contents), c)
  | .rewrite bytes => (.ok none, { c with contents := bytes })

theorem contents_step (c : FileCell) (a : FileAction) :
    (c.step a).2.contents = (if (c.step a).1.isOk then a.put?
      else none).getD c.contents := by
  obtain ⟨contents, isOpen⟩ := c
  cases isOpen <;> cases a <;> rfl

/-- The cell holds the bytes that were put into it last. -/
theorem contents_run (c : FileCell) (actions : List FileAction) :
    (run step c actions).2.contents =
      (puts actions (run step c actions).1).getLast?.getD c.contents := by
  induction actions generalizing c with
  | nil => rfl
  | cons a rest ih =>
      have hputs : puts (a :: rest) (run step c (a :: rest)).1 =
          (if (c.step a).1.isOk then a.put? else none).toList ++
            puts rest (run step (c.step a).2 rest).1 := by
        cases hput : (if (c.step a).1.isOk then a.put? else none) with
        | none => simp [puts, run, hput]
        | some bytes => simp [puts, run, hput]
      have hcontents := contents_step c a
      rw [hputs]
      change (run step (c.step a).2 rest).2.contents = _
      rw [ih, hcontents]
      cases (if (c.step a).1.isOk then a.put? else none) with
      | none => rfl
      | some bytes => simp [List.getLast?_cons]

end FileCell

namespace Disk

/-! ## Opening keeps what a file holds -/

theorem contents?_makeDirectory {d d' : Disk} {names : List String}
    (h : d.makeDirectory names = .ok d') (place : Place) :
    d'.contents? place = d.contents? place := by
  unfold makeDirectory at h
  obtain ⟨above, -, h⟩ := exists_of_bind_eq_ok h
  cases hlast : names.getLast? with
  | none =>
      rw [hlast] at h
      nomatch h
  | some name =>
      rw [hlast] at h
      obtain ⟨made, -, h⟩ := exists_of_bind_eq_ok h
      cases hnode : d.node? made with
      | some node =>
          rw [hnode] at h
          nomatch h
      | none =>
          rw [hnode] at h
          obtain rfl : d.put made .directory = d' := Except.ok.inj h
          have hmade : made ≠ [] := ne_nil_of_node? (d := d) (by simp [hnode])
          by_cases hsame : place = made
          · subst hsame
            simp [contents?, node?_put hmade, hnode]
          · simp [contents?, node?_put hmade, hsame]

theorem contents?_makeDirectories {d d' : Disk} {names : List String}
    (h : d.makeDirectories names = .ok d') (place : Place) :
    d'.contents? place = d.contents? place := by
  induction names generalizing d d' with
  | nil =>
      obtain rfl : d = d' := Except.ok.inj h
      rfl
  | cons name above ih =>
      unfold makeDirectories at h
      dsimp only at h
      cases hmade : d.makeDirectory (name :: above).reverse with
      | ok d₁ =>
          rw [hmade] at h
          obtain rfl : d₁ = d' := Except.ok.inj h
          exact contents?_makeDirectory hmade place
      | error e =>
          rw [hmade] at h
          by_cases he : e = .notFound
          · subst he
            obtain ⟨d₁, habove, h⟩ := exists_of_bind_eq_ok h
            rw [← ih habove]
            cases hagain : d₁.makeDirectory (name :: above).reverse with
            | ok d₂ =>
                rw [hagain] at h
                obtain rfl : d₂ = d' := Except.ok.inj h
                exact contents?_makeDirectory hagain place
            | error e =>
                rw [hagain] at h
                rw [eq_of_ite_eq_ok h]
          · have hkept : d = d' := by
              cases e with
              | notFound => exact absurd rfl he
              | _ => exact eq_of_ite_eq_ok h
            rw [hkept]

end Disk

namespace SnapshotFile

open Disk

/-- A file that is opened holds what it held before, or nothing
if there was none. -/
theorem contents?_openAt {d d' : Disk} {path : String} {f : SnapshotFile}
    (h : openAt d path = .ok (f, d')) :
    d'.contents? f.place = some ((d.contents? f.place).getD []) := by
  unfold openAt at h
  obtain ⟨r, -, h⟩ := exists_of_bind_eq_ok h
  obtain ⟨d₁, hmade, h⟩ := exists_of_bind_eq_ok h
  obtain ⟨⟨place, d₂⟩, hopen, h⟩ := exists_of_bind_eq_ok h
  cases h
  rw [← contents?_makeDirectories hmade]
  obtain ⟨-, -, -, ⟨bytes, hnode, rfl⟩ | ⟨hnone, rfl⟩⟩ := openFile_eq_ok hopen
  · simp [contents?, hnode]
  · rw [contents?_put (ne_nil_of_node? (d := d₁) (by simp [hnone]))]
    simp [contents?, hnone]

namespace Settled

variable {d : Disk} {path : String} {f : SnapshotFile} {bytes : Bytes}

/-- A settled file is read by its path. -/
theorem read_eq (h : Settled d path f)
    (hbytes : d.contents? f.place = some bytes) :
    d.read path = .ok bytes := by
  obtain ⟨r, directory, hroute, hdotted, hslashed, hwalk, hbelow⟩ :=
    h.exists_way
  simp [Disk.read, hroute, hdotted, hslashed, hwalk, hbelow,
    node?_of_contents? hbytes, bind, Except.bind, pure, Except.pure]

/-- A settled file is written by its path. -/
theorem write_eq (h : Settled d path f) (bytes : Bytes) :
    d.write path bytes = .ok (d.put f.place (.file bytes)) := by
  obtain ⟨old, hold⟩ := h.exists_contents
  obtain ⟨r, directory, hroute, hdotted, hslashed, hwalk, hbelow⟩ :=
    h.exists_way
  have hopened : d.openFile r = .ok (f.place, d) :=
    openFile_of_file hdotted hslashed hwalk hbelow (node?_of_contents? hold)
  simp [Disk.write, hroute, hopened, bind, Except.bind, pure, Except.pure]

end Settled

end SnapshotFile

/-! ## Every history -/

/-- The file of a path stands at a place, where it holds what the cell holds;
everything else is as it was on the first disk. -/
structure Shows (path : String) (place : Place) (first : Disk)
    (s : SnapshotFile × Disk) (c : FileCell) : Prop where
  file_eq : s.1 = ⟨path, place, c.isOpen⟩
  settled : SnapshotFile.Settled s.2 path ⟨path, place, true⟩
  contents : s.2.contents? place = some c.contents
  others : ∀ other, other ≠ place → s.2.node? other = first.node? other

namespace Shows

open FileAction

variable {path : String} {place : Place} {first d : Disk} {f : SnapshotFile}
  {c : FileCell}

theorem of_openAt {d' : Disk} (h : SnapshotFile.openAt d path = .ok (f, d')) :
    Shows path f.place d' (f, d') ⟨(d.contents? f.place).getD [], true⟩ := by
  have hsettled := SnapshotFile.settled_of_openAt h
  have hfile : f = ⟨path, f.place, true⟩ := by
    rw [← hsettled.path_eq, ← hsettled.isOpen]
  refine ⟨hfile, ?_, SnapshotFile.contents?_openAt h, fun _ _ => rfl⟩
  rw [← hfile]
  exact hsettled

theorem put (h : Shows path place first (f, d) c) (bytes : Bytes) :
    Shows path place first (f, d.put place (.file bytes))
      { c with contents := bytes } := by
  refine ⟨h.file_eq, h.settled.put bytes, h.settled.contents?_put bytes,
    fun other hother => ?_⟩
  rw [Disk.node?_put (Disk.ne_nil_of_node? h.settled.node?_ne_directory),
    if_neg hother]
  exact h.others other hother

theorem withFile (h : Shows path place first (f, d) c) (isOpen : Bool) :
    Shows path place first (⟨path, place, isOpen⟩, d) { c with isOpen } :=
  ⟨rfl, h.settled, h.contents, h.others⟩

end Shows

namespace FileAction

/-- What a snapshot file does is what the cell does. -/
theorem simulates_cell (path : String) (place : Place) (first : Disk) :
    Simulates (bySnapshot path) FileCell.step (Shows path place first) := by
  rintro ⟨f, d⟩ ⟨contents, isOpen⟩ a h
  obtain rfl : f = ⟨path, place, isOpen⟩ := h.file_eq
  have hcontents : d.contents? place = some contents := h.contents
  cases a with
  | reopen =>
      simp only [bySnapshot, h.settled.openAt_eq, settle]
      exact ⟨rfl, h.withFile true⟩
  | load =>
      cases isOpen with
      | true =>
          refine ⟨?_, h⟩
          simp [bySnapshot, SnapshotFile.load_eq, hcontents, FileCell.step,
            Except.map]
      | false => exact ⟨rfl, h⟩
  | save bytes =>
      cases isOpen with
      | true =>
          simp only [bySnapshot, SnapshotFile.save_eq, if_true]
          exact ⟨rfl, h.put bytes⟩
      | false => exact ⟨rfl, h⟩
  | clear =>
      cases isOpen with
      | true =>
          simp only [bySnapshot, SnapshotFile.clear_eq, if_true]
          exact ⟨rfl, h.put []⟩
      | false => exact ⟨rfl, h⟩
  | close => exact ⟨rfl, h.withFile false⟩
  | look =>
      simp only [bySnapshot, h.settled.read_eq hcontents, FileCell.step]
      exact ⟨rfl, h⟩
  | rewrite bytes =>
      simp only [bySnapshot, h.settled.write_eq bytes, FileCell.step]
      exact ⟨rfl, h.put bytes⟩

/-- A handle and a snapshot file do the same, wherever the offset of
the handle stands. -/
theorem simulates_snapshot (path : String) :
    Simulates (byHandle path) (bySnapshot path) fun s t =>
      (s.1.file, s.2) = t := by
  rintro ⟨⟨f, offset⟩, d⟩ t a rfl
  cases a with
  | reopen =>
      cases hopen : SnapshotFile.openAt d path with
      | error e =>
          simp [byHandle, bySnapshot, FileHandle.openAt, hopen, settle, bind,
            Except.bind]
      | ok opened =>
          simp [byHandle, bySnapshot, FileHandle.openAt, hopen, settle, bind,
            Except.bind, pure, Except.pure]
  | load =>
      simp only [byHandle, bySnapshot, FileHandle.load_eq, SnapshotFile.load_eq]
      cases f.isOpen <;> exact ⟨rfl, rfl⟩
  | save bytes =>
      simp only [byHandle, bySnapshot, FileHandle.save_eq, SnapshotFile.save_eq]
      cases f.isOpen <;> exact ⟨rfl, rfl⟩
  | clear =>
      simp only [byHandle, bySnapshot, FileHandle.clear_eq,
        SnapshotFile.clear_eq]
      cases f.isOpen <;> exact ⟨rfl, rfl⟩
  | close => exact ⟨rfl, rfl⟩
  | look => exact ⟨rfl, rfl⟩
  | rewrite bytes =>
      simp only [byHandle, bySnapshot]
      cases d.write path bytes <;> exact ⟨rfl, rfl⟩

end FileAction

/-- Whatever is done with a file that was opened, by its handle or from outside,
the answers are those of a cell that begins with what the file held.  The file
holds what the cell holds, which is what was put into it last, and nothing else
on the disk changes.  A snapshot file, which keeps no offset, gives the same
answers and leaves the same disk. -/
theorem FileHandle.behaves_as_cell {d d' : Disk} {path : String}
    {h : FileHandle} (hopen : FileHandle.openAt d path = .ok (h, d'))
    (actions : List FileAction) :
    let before := (d.contents? h.file.place).getD []
    ∃ answers c h' d'', FileAction.run FileCell.step ⟨before, true⟩ actions =
      (answers, c) ∧
      FileAction.run (FileAction.byHandle path) (h, d') actions =
      (answers, h', d'') ∧
      FileAction.run (FileAction.bySnapshot path) (h.file, d') actions =
        (answers, h'.file, d'') ∧
      h'.file = { h.file with isOpen := c.isOpen } ∧
        d''.read path = .ok c.contents ∧
      c.contents = (FileAction.puts actions answers).getLast?.getD before ∧
      ∀ place, place ≠ h.file.place → d''.node? place = d'.node? place := by
  intro before
  obtain ⟨⟨f, d₁⟩, hfile, hhandle⟩ := exists_of_bind_eq_ok hopen
  obtain ⟨rfl, rfl⟩ : FileHandle.mk f 0 = h ∧ d₁ = d' := by
    simpa [pure, Except.pure] using hhandle
  obtain ⟨hcell, hlast⟩ :=
    (FileAction.simulates_cell path f.place d₁).run
      (Shows.of_openAt hfile) actions
  obtain ⟨hanswers, hsame⟩ :=
    (FileAction.simulates_snapshot path).run (s := (⟨f, 0⟩, d₁)) rfl actions
  obtain ⟨hsnapshot, hdisk⟩ := Prod.mk.inj hsame
  refine ⟨_, _, _, _, rfl, Prod.ext (hanswers.trans hcell) rfl,
    Prod.ext hcell hsame.symm, ?_, ?_, FileCell.contents_run _ actions, ?_⟩
  · rw [hsnapshot, hlast.file_eq,
      ← (SnapshotFile.settled_of_openAt hfile).path_eq]
  · rw [hdisk]
    exact hlast.settled.read_eq hlast.contents
  · rw [hdisk]
    exact hlast.others

/-- A file is read to its end, made shorter from outside and saved again; a save
after it was closed fails and changes nothing. -/
theorem FileHandle.behaves_as_cell_rewritten :
    let h : FileHandle :=
      ⟨⟨"data/metrics-db.json", ["data", "metrics-db.json"], true⟩, 0⟩
    let d : Disk :=
      ⟨[(["data"], .directory),
          (["data", "metrics-db.json"], .file [1, 2, 3, 4])]⟩
    let actions : List FileAction :=
      [.load, .rewrite [5], .save [6, 7], .look, .close, .save [8], .close,
        .reopen, .load]
    FileHandle.openAt d "data/metrics-db.json" = .ok (h, d) ∧
      ∃ h' d'', FileAction.run (FileAction.byHandle "data/metrics-db.json")
        (h, d) actions =
        ([.ok (some [1, 2, 3, 4]), .ok none, .ok none, .ok (some [6, 7]),
          .ok none, .error .closed, .ok none, .ok none, .ok (some [6, 7])],
        h', d'') ∧
        d''.read "data/metrics-db.json" = .ok [6, 7] := by
  intro h d actions
  have hopen : FileHandle.openAt d "data/metrics-db.json" = .ok (h, d) := rfl
  obtain ⟨answers, c, h', d'', hcell, hhandle, -, -, hread, -⟩ :=
    FileHandle.behaves_as_cell hopen actions
  obtain ⟨rfl, rfl⟩ := Prod.mk.inj hcell
  exact ⟨hopen, h', d'', hhandle, hread⟩

end Telemetry
