import MiniDbms.Storage.Effects

/-!
# Processes that share a table file

Calls of `storage_insert`, `storage_delete` and `storage_load_table` on one table, in any number of
processes and any interleaving of their steps. A lock belongs to the inode that was opened, while
`storage_delete` puts a new inode at the path. As long as every lock is taken on the inode that is
at the path, the calls that have an effect have it one after the other.
-/

namespace MiniDbms

/-! ### The files -/

abbrev Inode := Nat

/-- The file system as far as one table goes: the inodes at `data/<table>.csv` and at
`data/<table>.tmp`, and the content of every inode. -/
structure TableFiles where
  path : Option Inode
  tempPath : Option Inode
  content : Inode → CString
  nextInode : Inode

namespace TableFiles

/-- No file yet. -/
def none : TableFiles := ⟨.none, .none, fun _ => [], 0⟩

/-- The file that is there, if there is one. -/
def initial : Option CString → TableFiles
  | .none        => none
  | some content => ⟨some 0, .none, Function.update (fun _ => []) 0 content, 1⟩

/-- What is found at the path. -/
def file (files : TableFiles) : CString := (files.path.map files.content).getD []

/-- `fopen(path, "a+")` -/
def openAppend (files : TableFiles) : TableFiles × Inode :=
  match files.path with
  | some i => (files, i)
  | .none  =>
    ({ files with
        path := some files.nextInode
        content := Function.update files.content files.nextInode []
        nextInode := files.nextInode + 1 }, files.nextInode)

/-- `fopen(temp_path, "w")` -/
def openTemp (files : TableFiles) : TableFiles × Inode :=
  match files.tempPath with
  | some i => ({ files with content := Function.update files.content i [] }, i)
  | .none  =>
    ({ files with
        tempPath := some files.nextInode
        content := Function.update files.content files.nextInode []
        nextInode := files.nextInode + 1 }, files.nextInode)

/-- A write at the end of the file, as in the mode `"a+"`. -/
def append (files : TableFiles) (i : Inode) (text : CString) : TableFiles :=
  { files with content := Function.update files.content i (files.content i ++ text) }

/-- A write at the start of the file. -/
def overwrite (files : TableFiles) (i : Inode) (text : CString) : TableFiles :=
  { files with
    content := Function.update files.content i (text ++ (files.content i).drop text.length) }

/-- `rename(temp_path, path)` for a temporary file that is there. -/
def rename (files : TableFiles) : TableFiles :=
  { files with path := files.tempPath, tempPath := .none }

/-- `remove(temp_path)` -/
def removeTemp (files : TableFiles) : TableFiles := { files with tempPath := .none }

end TableFiles

/-- The largest size of a file, an `off_t`. -/
def maxFileSize : Nat := 2 ^ 63 - 1

/-! ### The calls -/

inductive StorageCall where
  | insert (stmt : InsertStatement)
  | delete (stmt : DeleteStatement)
  | load

/-- Whether the call locks with `LOCK_SH`. -/
def StorageCall.Shared (call : StorageCall) : Prop := call = .load

/-- Where a call is. From `locked` to `done` it holds the lock on the inode that it has opened. -/
inductive CallPhase where
  | start
  | opened (i : Inode)
  | locked (i : Inode)
  | computed (i : Inode) (row : List CString) (text : CString)  -- the file was read
  | buffered (i : Inode) (row : List CString) (text : CString)  -- the stream holds the row
  | loaded (i : Inode) (table : TableData)                      -- the table was read
  | copying (i : Inode) (table : TableData) (temp : Inode)      -- the temporary file is open
  | copied (i : Inode) (table : TableData) (status : Status)    -- and closed again
  | done (i : Inode) (status : Status)
  | unlocked (status : Status)
  | returned (status : Status)

namespace CallPhase

/-- The inode that a call holds the lock on. -/
def holds : CallPhase → Option Inode
  | locked i        => some i
  | computed i _ _  => some i
  | buffered i _ _  => some i
  | loaded i _      => some i
  | copying i _ _   => some i
  | copied i _ _    => some i
  | done i _        => some i
  | _               => none

/-- The inode that a call holds the lock on while its work is not done. -/
def works : CallPhase → Option Inode
  | done _ _ => none
  | p        => p.holds

/-- The inode that a call has opened and still has to lock. -/
def opens : CallPhase → Option Inode
  | opened i => some i
  | _        => none

/-- The status of a call that has done its work. -/
def status : CallPhase → Option Status
  | done _ status   => some status
  | unlocked status => some status
  | returned status => some status
  | _               => none

lemma holds_of_works {p : CallPhase} {i : Inode} (h : p.works = some i) : p.holds = some i := by
  cases p with
  | done j status => cases h
  | _ => exact h

end CallPhase

/-! ### Runs -/

variable {ι : Type}

/-- What has happened to the table: a row was stored, or the rows that match were deleted. -/
inductive TableEvent (ι : Type) where
  | inserted (p : ι) (row : List CString)
  | deleted (p : ι) (columns : List Identifier)

/-- The process that has done it. -/
def TableEvent.process : TableEvent ι → ι
  | inserted p _ => p
  | deleted p _  => p

/-- The files, the calls, and a record of the effects in their order and of what was loaded. -/
structure StorageRun (ι : Type) where
  files : TableFiles
  phase : ι → CallPhase
  log : List (TableEvent ι)
  seen : List (ι × CString)

namespace StorageRun

/-- Nothing has happened to the file, if there is one. -/
def startWith (initial : Option CString) : StorageRun ι :=
  ⟨.initial initial, fun _ => .start, [], []⟩

/-- Nothing has happened, and there is no file. -/
def start : StorageRun ι := startWith none

variable [DecidableEq ι]

def setPhase (s : StorageRun ι) (p : ι) (phase : CallPhase) : StorageRun ι :=
  { s with phase := Function.update s.phase p phase }

/-- `flock` succeeds when nobody else holds a lock on the inode that excludes this one. -/
def CanLock (call : ι → StorageCall) (s : StorageRun ι) (p : ι) (i : Inode) : Prop :=
  ∀ q, q ≠ p → (s.phase q).holds = some i → (call p).Shared ∧ (call q).Shared

/-- One step of one of the calls. -/
inductive Step (call : ι → StorageCall) (s : StorageRun ι) : StorageRun ι → Prop
  | openAppend {p : ι} {stmt : InsertStatement} {files : TableFiles} {i : Inode}
      (hp : s.phase p = .start) (hcall : call p = .insert stmt)
      (hopen : s.files.openAppend = (files, i)) :
      Step call s ({ s with files := files }.setPhase p (.opened i))
  | openRead {p : ι} {i : Inode} (hp : s.phase p = .start)
      (hcall : ∀ stmt, call p ≠ .insert stmt) (hopen : s.files.path = some i) :
      Step call s (s.setPhase p (.opened i))
  | openMissing {p : ι} (hp : s.phase p = .start) (hcall : ∀ stmt, call p ≠ .insert stmt)
      (hopen : s.files.path = none) : Step call s (s.setPhase p (.returned .failure))
  | lock {p : ι} {i : Inode} (hp : s.phase p = .opened i) (hlock : CanLock call s p i) :
      Step call s (s.setPhase p (.locked i))
  | compute {p : ι} {i : Inode} {stmt : InsertStatement} {text : CString}
      (hp : s.phase p = .locked i) (hcall : call p = .insert stmt)
      (htext : storageInsertText (s.files.content i) stmt = some text) :
      Step call s (s.setPhase p
        (.computed i (storageInsertValues (s.files.content i) stmt) text))
  | refuse {p : ι} {i : Inode} {stmt : InsertStatement} (hp : s.phase p = .locked i)
      (hcall : call p = .insert stmt)
      (htext : storageInsertText (s.files.content i) stmt = none) :
      Step call s (s.setPhase p (.done i .failure))
  | buffer {p : ι} {i : Inode} {row : List CString} {text : CString}
      (hp : s.phase p = .computed i row text) : Step call s (s.setPhase p (.buffered i row text))
  | flush {p : ι} {i : Inode} {row : List CString} {text : CString}
      (hp : s.phase p = .buffered i row text)
      (hsize : (s.files.content i ++ text).length ≤ maxFileSize) :
      Step call s ({ s with
        files := s.files.append i text
        log := s.log ++ [TableEvent.inserted p row] }.setPhase p (.done i .success))
  | readTable {p : ι} {i : Inode} {status : Status} (hp : s.phase p = .locked i)
      (hcall : call p = .load)
      (hstatus : status = .success ↔ (storageLoadTableFromFp (s.files.content i)).isSome = true) :
      Step call s ({ s with
        seen := s.seen ++ [(p, s.files.content i)] }.setPhase p (.done i status))
  | load {p : ι} {i : Inode} {stmt : DeleteStatement} {table : TableData}
      (hp : s.phase p = .locked i) (hcall : call p = .delete stmt)
      (hload : storageLoadTableFromFp (s.files.content i) = some table) :
      Step call s (s.setPhase p (.loaded i table))
  | loadFails {p : ι} {i : Inode} {stmt : DeleteStatement} (hp : s.phase p = .locked i)
      (hcall : call p = .delete stmt)
      (hload : storageLoadTableFromFp (s.files.content i) = none) :
      Step call s (s.setPhase p (.done i .failure))
  | openTemp {p : ι} {i : Inode} {table : TableData} {files : TableFiles} {temp : Inode}
      (hp : s.phase p = .loaded i table) (hopen : s.files.openTemp = (files, temp)) :
      Step call s ({ s with files := files }.setPhase p (.copying i table temp))
  | copy {p : ι} {i : Inode} {stmt : DeleteStatement} {table : TableData} {temp : Inode}
      {text : CString} {deletedCount : Int} {status : Status}
      (hp : s.phase p = .copying i table temp) (hcall : call p = .delete stmt)
      (htext : storageDeleteText stmt table = (text, deletedCount, status)) :
      Step call s ({ s with files := s.files.overwrite temp text }.setPhase p
        (.copied i table status))
  | rename {p : ι} {i temp : Inode} {table : TableData}
      (hp : s.phase p = .copied i table .success) (htemp : s.files.tempPath = some temp) :
      Step call s ({ s with
        files := s.files.rename
        log := s.log ++ [TableEvent.deleted p table.columns] }.setPhase p (.done i .success))
  | renameFails {p : ι} {i : Inode} {table : TableData}
      (hp : s.phase p = .copied i table .success) (htemp : s.files.tempPath = none) :
      Step call s (s.setPhase p (.done i .failure))
  | abandon {p : ι} {i : Inode} {table : TableData} (hp : s.phase p = .copied i table .failure) :
      Step call s ({ s with files := s.files.removeTemp }.setPhase p (.done i .failure))
  | unlock {p : ι} {i : Inode} {status : Status} (hp : s.phase p = .done i status) :
      Step call s (s.setPhase p (.unlocked status))
  | close {p : ι} {status : Status} (hp : s.phase p = .unlocked status) :
      Step call s (s.setPhase p (.returned status))

/-- The states that an interleaving of the calls can lead to. -/
def Reachable (call : ι → StorageCall) (s : StorageRun ι) : Prop :=
  Relation.ReflTransGen (Step call) start s

/-- If the step takes a lock, it takes it on the inode that is at the path. -/
def LocksCurrent (s s' : StorageRun ι) : Prop :=
  ∀ p i, s.phase p = .opened i → s'.phase p = .locked i → s.files.path = some i

/-- The states that an interleaving can lead to in which every lock is taken on the inode that is
at the path. -/
def ReachableCurrent (initial : Option CString) (call : ι → StorageCall) (s : StorageRun ι) : Prop :=
  Relation.ReflTransGen (fun s s' => Step call s s' ∧ LocksCurrent s s') (startWith initial) s

omit [DecidableEq ι] in
/-- A lock that nobody holds can be taken. -/
lemma canLock_of_free {call : ι → StorageCall} {s : StorageRun ι} {p : ι} {i : Inode}
    (h : ∀ q, (s.phase q).holds = none) : CanLock call s p i := by
  intro q _ hq
  rw [h q] at hq
  cases hq

omit [DecidableEq ι] in
/-- Whatever the step is, as long as everything that was opened is still at the path. -/
lemma locksCurrent_of_opens {s s' : StorageRun ι}
    (h : ∀ p, (s.phase p).opens = none ∨ (s.phase p).opens = s.files.path) : LocksCurrent s s' := by
  intro p i hp _
  rcases h p with hnone | hpath
  · rw [hp] at hnone
    cases hnone
  · rw [← hpath, hp]
    rfl

end StorageRun

/-! ### One call after the other -/

/-- The effects of calls that are made one after the other on a file with that content at first. -/
inductive Sequential (initial : CString) (call : ι → StorageCall) :
    List (TableEvent ι) → CString → Prop
  | nil : Sequential initial call [] initial
  | insert {log : List (TableEvent ι)} {content text : CString} {p : ι} {stmt : InsertStatement}
      (h : Sequential initial call log content) (hcall : call p = .insert stmt)
      (htext : storageInsertText content stmt = some text)
      (hsize : (content ++ text).length ≤ maxFileSize) :
      Sequential initial call (log ++ [.inserted p (storageInsertValues content stmt)])
        (content ++ text)
  | delete {log : List (TableEvent ι)} {content : CString} {p : ι} {stmt : DeleteStatement}
      {table : TableData} {text : CString} {deletedCount : Int}
      (h : Sequential initial call log content) (hcall : call p = .delete stmt)
      (hload : storageLoadTableFromFp content = some table)
      (htext : storageDeleteText stmt table = (text, deletedCount, .success)) :
      Sequential initial call (log ++ [.deleted p table.columns]) text

/-! ### The invariant -/

namespace TableFiles

/-- The two paths lead to different inodes, which are not free anymore. -/
structure Ok (files : TableFiles) : Prop where
  path_lt : ∀ i, files.path = some i → i < files.nextInode
  temp_lt : ∀ i, files.tempPath = some i → i < files.nextInode
  apart : ∀ i, files.path = some i → files.tempPath ≠ some i

variable {files : TableFiles}

lemma file_of_path {i : Inode} (h : files.path = some i) : files.file = files.content i := by
  rw [file, h]
  rfl

lemma file_of_none (h : files.path = .none) : files.file = [] := by
  rw [file, h]
  rfl

lemma ok_initial (content : Option CString) : (initial content).Ok := by
  cases content with
  | none => exact ⟨by rintro i ⟨⟩, by rintro i ⟨⟩, by rintro i ⟨⟩⟩
  | some content =>
    refine ⟨?_, by rintro i ⟨⟩, by rintro i - ⟨⟩⟩
    rintro i ⟨⟩
    exact Nat.zero_lt_one

lemma file_initial (content : Option CString) : (initial content).file = content.getD [] := by
  cases content with
  | none => rfl
  | some content => simp [initial, file]

lemma file_congr {files' : TableFiles} (hpath : files'.path = files.path)
    (hcontent : ∀ i, files.path = some i → files'.content i = files.content i) :
    files'.file = files.file := by
  cases hold : files.path with
  | none => rw [file_of_none hold, file_of_none (hpath.trans hold)]
  | some i => rw [file_of_path hold, file_of_path (hpath.trans hold), hcontent i hold]

lemma Ok.openAppend {files' : TableFiles} {i : Inode} (h : files.Ok)
    (hopen : files.openAppend = (files', i)) :
    files'.Ok ∧ files'.file = files.file ∧ (files' = files ∨ files.path = .none) := by
  unfold TableFiles.openAppend at hopen
  cases hpath : files.path with
  | some j =>
    rw [hpath] at hopen
    obtain ⟨rfl, -⟩ := Prod.mk.inj hopen
    exact ⟨h, rfl, .inl rfl⟩
  | none =>
    rw [hpath] at hopen
    obtain ⟨rfl, -⟩ := Prod.mk.inj hopen
    refine ⟨⟨?_, ?_, ?_⟩, ?_, .inr rfl⟩
    · rintro i ⟨⟩
      exact Nat.lt_succ_self _
    · intro i hi
      exact (h.temp_lt i hi).trans (Nat.lt_succ_self _)
    · rintro i ⟨⟩ hi
      exact absurd (h.temp_lt _ hi) (Nat.lt_irrefl _)
    · rw [file_of_none hpath]
      exact Function.update_self ..

/-- Opening the temporary file leaves the table as it is. -/
lemma Ok.openTemp {files' : TableFiles} {temp : Inode} (h : files.Ok)
    (hopen : files.openTemp = (files', temp)) :
    files'.Ok ∧ files'.path = files.path ∧ files'.file = files.file ∧
      files'.tempPath = some temp ∧ files'.content temp = [] := by
  unfold TableFiles.openTemp at hopen
  cases htemp : files.tempPath with
  | some j =>
    rw [htemp] at hopen
    obtain ⟨rfl, rfl⟩ := Prod.mk.inj hopen
    refine ⟨⟨h.path_lt, ?_, ?_⟩, rfl, file_congr rfl ?_, rfl, Function.update_self ..⟩
    · rintro i ⟨⟩
      exact h.temp_lt _ htemp
    · rintro i hi ⟨⟩
      exact h.apart _ hi htemp
    · intro i hi
      have hne : i ≠ j := fun heq => h.apart i hi (heq ▸ htemp)
      exact Function.update_of_ne hne ..
  | none =>
    rw [htemp] at hopen
    obtain ⟨rfl, rfl⟩ := Prod.mk.inj hopen
    refine ⟨⟨?_, ?_, ?_⟩, rfl, file_congr rfl ?_, rfl, Function.update_self ..⟩
    · intro i hi
      exact (h.path_lt i hi).trans (Nat.lt_succ_self _)
    · rintro i ⟨⟩
      exact Nat.lt_succ_self _
    · rintro i hi ⟨⟩
      exact absurd (h.path_lt _ hi) (Nat.lt_irrefl _)
    · intro i hi
      exact Function.update_of_ne (h.path_lt i hi).ne ..

lemma Ok.append {i : Inode} (h : files.Ok) (hpath : files.path = some i) (text : CString) :
    (files.append i text).Ok ∧ (files.append i text).file = files.file ++ text := by
  have hpath' : (files.append i text).path = some i := hpath
  refine ⟨⟨h.path_lt, h.temp_lt, h.apart⟩, ?_⟩
  rw [file_of_path hpath, file_of_path hpath']
  exact Function.update_self ..

/-- Writing the temporary file leaves the table as it is. -/
lemma Ok.overwrite {temp : Inode} (h : files.Ok) (htemp : files.tempPath = some temp)
    (hempty : files.content temp = []) (text : CString) :
    (files.overwrite temp text).Ok ∧ (files.overwrite temp text).file = files.file ∧
      (files.overwrite temp text).content temp = text := by
  refine ⟨⟨h.path_lt, h.temp_lt, h.apart⟩, file_congr rfl ?_, ?_⟩
  · intro i hi
    have hne : i ≠ temp := fun heq => h.apart i hi (heq ▸ htemp)
    exact Function.update_of_ne hne ..
  · simp [TableFiles.overwrite, hempty]

lemma Ok.rename {temp : Inode} (h : files.Ok) (htemp : files.tempPath = some temp) :
    files.rename.Ok ∧ files.rename.file = files.content temp := by
  refine ⟨⟨h.temp_lt, ?_, ?_⟩, ?_⟩
  · rintro i ⟨⟩
  · rintro i - ⟨⟩
  · exact file_of_path htemp

lemma Ok.removeTemp (h : files.Ok) : files.removeTemp.Ok ∧ files.removeTemp.file = files.file := by
  refine ⟨⟨h.path_lt, ?_, ?_⟩, rfl⟩
  · rintro i ⟨⟩
  · rintro i - ⟨⟩

end TableFiles

namespace StorageRun

/-- What a call knows while it holds the lock: its inode is at the path, and the file is still as it
was when the call read it. -/
def Knows (call : StorageCall) (files : TableFiles) : CallPhase → Prop
  | .locked i            => files.path = some i
  | .computed i row text =>
    files.path = some i ∧ ∃ stmt, call = .insert stmt ∧
      storageInsertText files.file stmt = some text ∧ row = storageInsertValues files.file stmt
  | .buffered i row text =>
    files.path = some i ∧ ∃ stmt, call = .insert stmt ∧
      storageInsertText files.file stmt = some text ∧ row = storageInsertValues files.file stmt
  | .loaded i table      =>
    files.path = some i ∧ (∃ stmt, call = .delete stmt) ∧
      storageLoadTableFromFp files.file = some table
  | .copying i table temp =>
    files.path = some i ∧ (∃ stmt, call = .delete stmt) ∧
      storageLoadTableFromFp files.file = some table ∧
      files.tempPath = some temp ∧ files.content temp = []
  | .copied i table status =>
    files.path = some i ∧ ∃ stmt temp deletedCount, call = .delete stmt ∧
      storageLoadTableFromFp files.file = some table ∧ files.tempPath = some temp ∧
      storageDeleteText stmt table = (files.content temp, deletedCount, status)
  | _                    => True

lemma Knows.path {call : StorageCall} {files : TableFiles} {phase : CallPhase} {i : Inode}
    (h : Knows call files phase) (hworks : phase.works = some i) : files.path = some i := by
  cases phase with
  | locked j =>
    cases hworks
    exact h
  | computed j row text =>
    cases hworks
    exact h.1
  | buffered j row text =>
    cases hworks
    exact h.1
  | loaded j table =>
    cases hworks
    exact h.1
  | copying j table temp =>
    cases hworks
    exact h.1
  | copied j table status =>
    cases hworks
    exact h.1
  | _ => cases hworks

lemma knows_of_idle {call : StorageCall} {files : TableFiles} {phase : CallPhase}
    (h : phase.works = none) : Knows call files phase := by
  cases phase with
  | start => trivial
  | opened i => trivial
  | done i status => trivial
  | unlocked status => trivial
  | returned status => trivial
  | _ => cases h

/-- The call has had its effect on the table. -/
def Effective (call : StorageCall) (phase : CallPhase) : Prop :=
  phase.status = some .success ∧ ¬ call.Shared

/-- What holds in every state that is reached with locks on the inode at the path. -/
structure Inv (initial : CString) (call : ι → StorageCall) (s : StorageRun ι) : Prop where
  excludes : ∀ p q i, (s.phase p).holds = some i → (s.phase q).holds = some i → p ≠ q →
    (call p).Shared ∧ (call q).Shared
  knows : ∀ p, Knows (call p) s.files (s.phase p)
  files : s.files.Ok
  sequential : Sequential initial call s.log s.files.file
  seen : ∀ r ∈ s.seen, ∃ log, log <+: s.log ∧ Sequential initial call log r.2
  logged : ∀ p, p ∈ s.log.map TableEvent.process ↔ Effective (call p) (s.phase p)
  nodup : (s.log.map TableEvent.process).Nodup

variable {initial : CString} {call : ι → StorageCall} {s s' : StorageRun ι}

lemma inv_start (initial : Option CString) (call : ι → StorageCall) :
    (startWith initial : StorageRun ι).Inv (initial.getD []) call where
  excludes := by
    rintro p q i ⟨⟩
  knows _ := trivial
  files := TableFiles.ok_initial initial
  sequential := by
    rw [startWith, TableFiles.file_initial]
    exact .nil
  seen := by
    rintro r ⟨⟩
  logged p := by
    constructor
    · rintro ⟨⟩
    · rintro ⟨⟨⟩, -⟩
  nodup := List.nodup_nil

/-- What a call knows, by where it is. -/
lemma Inv.knows_at (h : s.Inv initial call) {p : ι} {phase : CallPhase} (hp : s.phase p = phase) :
    Knows (call p) s.files phase :=
  hp ▸ h.knows p

/-- The inode that a call works on is at the path. -/
lemma Inv.path_at (h : s.Inv initial call) {p : ι} {phase : CallPhase} {i : Inode}
    (hp : s.phase p = phase) (hworks : phase.works = some i) : s.files.path = some i :=
  (h.knows_at hp).path hworks

/-- A call that works under an exclusive lock is the only one that works. -/
lemma Inv.alone (h : s.Inv initial call) {p : ι} {phase : CallPhase} {i : Inode}
    (hp : s.phase p = phase) (hworks : phase.works = some i) (hcall : ¬ (call p).Shared) :
    ∀ q, q ≠ p → (s.phase q).works = none := by
  intro q hne
  cases hq : (s.phase q).works with
  | none => rfl
  | some j =>
    have hi := h.path_at hp hworks
    have hj := h.path_at rfl hq
    obtain rfl : i = j := Option.some.inj (hi.symm.trans hj)
    have hshared := h.excludes p q i (hp ▸ CallPhase.holds_of_works hworks)
      (CallPhase.holds_of_works hq) hne.symm
    exact absurd hshared.1 hcall

/-- Nobody works while there is no file. -/
lemma Inv.idle_of_missing (h : s.Inv initial call) (hpath : s.files.path = none) (q : ι) :
    (s.phase q).works = none := by
  cases hq : (s.phase q).works with
  | none => rfl
  | some j =>
    rw [h.path_at rfl hq] at hpath
    cases hpath

/-- What was seen once stays in the history. -/
lemma Inv.seen_concat (h : s.Inv initial call) (e : TableEvent ι) :
    ∀ r ∈ s.seen, ∃ log, log <+: s.log ++ [e] ∧ Sequential initial call log r.2 := by
  intro r hr
  obtain ⟨log, hbegins, hseq⟩ := h.seen r hr
  exact ⟨log, hbegins.trans (List.prefix_append _ _), hseq⟩

lemma not_effective_of_works {call : StorageCall} {phase : CallPhase} {i : Inode}
    (h : phase.works = some i) : ¬ Effective call phase := by
  rintro ⟨hstatus, -⟩
  cases phase with
  | done j status => cases h
  | unlocked status => cases h
  | returned status => cases h
  | _ => cases hstatus

lemma not_effective_failure {call : StorageCall} {phase : CallPhase}
    (h : phase.status = some .failure) : ¬ Effective call phase := by
  rintro ⟨hstatus, -⟩
  rw [h] at hstatus
  cases hstatus

variable [DecidableEq ι]

/-- Everything that a step of one call has to keep. -/
lemma Inv.move (h : s.Inv initial call) {p : ι} {old phase : CallPhase} (hp : s.phase p = old)
    (hphase : s'.phase = Function.update s.phase p phase)
    (hholds : ∀ i, phase.holds = some i → old.holds = some i ∨ CanLock call s p i)
    (hothers : s'.files = s.files ∨ ∀ q, q ≠ p → (s.phase q).works = none)
    (hknows : Knows (call p) s'.files phase) (hfiles : s'.files.Ok)
    (hsequential : Sequential initial call s'.log s'.files.file)
    (hseen : ∀ r ∈ s'.seen, ∃ log, log <+: s'.log ∧ Sequential initial call log r.2)
    (hlog : (s'.log = s.log ∧ (Effective (call p) phase ↔ Effective (call p) old)) ∨
      ∃ e, s'.log = s.log ++ [e] ∧ e.process = p ∧ Effective (call p) phase ∧
        ¬ Effective (call p) old) :
    s'.Inv initial call where
  excludes := by
    -- the other call of a pair holds what it held before
    have hmoved : ∀ q i, q ≠ p → phase.holds = some i → (s.phase q).holds = some i →
        (call p).Shared ∧ (call q).Shared := by
      intro q i hne hnew hq
      rcases hholds i hnew with hold | hcan
      · exact h.excludes p q i (hp ▸ hold) hq hne.symm
      · exact hcan q hne hq
    intro q r i hq hr hne
    rw [hphase] at hq hr
    by_cases hqp : q = p
    · subst hqp
      rw [Function.update_self] at hq
      rw [Function.update_of_ne hne.symm] at hr
      exact hmoved r i hne.symm hq hr
    · rw [Function.update_of_ne hqp] at hq
      by_cases hrp : r = p
      · subst hrp
        rw [Function.update_self] at hr
        exact (hmoved q i hne hr hq).symm
      · rw [Function.update_of_ne hrp] at hr
        exact h.excludes q r i hq hr hne
  knows q := by
    rw [hphase]
    by_cases hqp : q = p
    · rw [hqp, Function.update_self]
      exact hknows
    · rw [Function.update_of_ne hqp]
      rcases hothers with hsame | hidle
      · rw [hsame]
        exact h.knows q
      · exact knows_of_idle (hidle q hqp)
  files := hfiles
  sequential := hsequential
  seen := hseen
  logged q := by
    rw [hphase]
    by_cases hqp : q = p
    · subst hqp
      rw [Function.update_self]
      rcases hlog with ⟨hsame, hiff⟩ | ⟨e, hnew, rfl, heff, -⟩
      · rw [hsame, h.logged, hp, hiff]
      · rw [hnew]
        simp [heff]
    · rw [Function.update_of_ne hqp, ← h.logged]
      rcases hlog with ⟨hsame, -⟩ | ⟨e, hnew, rfl, -, -⟩
      · rw [hsame]
      · rw [hnew]
        simp [hqp]
  nodup := by
    rcases hlog with ⟨hsame, -⟩ | ⟨e, hnew, rfl, -, hnot⟩
    · rw [hsame]
      exact h.nodup
    · rw [hnew, List.map_append, List.map_singleton, List.nodup_append]
      refine ⟨h.nodup, List.nodup_singleton _, ?_⟩
      rintro q hq r hr rfl
      rw [List.mem_singleton.mp hr] at hq
      exact hnot (hp ▸ (h.logged _).mp hq)

/-- A step that only moves its call. -/
lemma Inv.setPhase (h : s.Inv initial call) {p : ι} {old phase : CallPhase} (hp : s.phase p = old)
    (hholds : ∀ i, phase.holds = some i → old.holds = some i ∨ CanLock call s p i)
    (hknows : Knows (call p) s.files phase)
    (heff : Effective (call p) phase ↔ Effective (call p) old) :
    (s.setPhase p phase).Inv initial call :=
  h.move hp rfl hholds (.inl rfl) hknows h.files h.sequential h.seen (.inl ⟨rfl, heff⟩)

/-- A call that gives up. -/
lemma Inv.fail (h : s.Inv initial call) {p : ι} {i : Inode} {old : CallPhase} (hp : s.phase p = old)
    (hworks : old.works = some i) : (s.setPhase p (.done i .failure)).Inv initial call := by
  refine h.setPhase hp ?_ trivial ?_
  · rintro j ⟨⟩
    exact .inl (CallPhase.holds_of_works hworks)
  · exact iff_of_false (not_effective_failure rfl) (not_effective_of_works hworks)

/-- A call has its effect on the table while nobody else works. -/
lemma Inv.effect (h : s.Inv initial call) {p : ι} {i : Inode} {old : CallPhase}
    (hp : s.phase p = old) (hworks : old.works = some i) (hcall : ¬ (call p).Shared)
    {files : TableFiles} (hok : files.Ok) {e : TableEvent ι} (he : e.process = p)
    (hsequential : Sequential initial call (s.log ++ [e]) files.file) :
    ({ s with files := files, log := s.log ++ [e] }.setPhase p (.done i .success)).Inv
      initial call := by
  refine h.move hp rfl ?_ (.inr (h.alone hp hworks hcall)) trivial hok hsequential
    (h.seen_concat e) (.inr ⟨e, rfl, he, ⟨rfl, hcall⟩, not_effective_of_works hworks⟩)
  rintro j ⟨⟩
  exact .inl (CallPhase.holds_of_works hworks)

lemma not_shared_insert {call : StorageCall} {stmt : InsertStatement} (h : call = .insert stmt) :
    ¬ call.Shared := by
  rintro ⟨⟩
  cases h

lemma not_shared_delete {call : StorageCall} {stmt : DeleteStatement} (h : call = .delete stmt) :
    ¬ call.Shared := by
  rintro ⟨⟩
  cases h

lemma Inv.step (h : s.Inv initial call) (hstep : Step call s s') (hcurrent : LocksCurrent s s') :
    s'.Inv initial call := by
  cases hstep with
  | @openAppend p stmt files i hp hcall hopen =>
    obtain ⟨hok, hfile, hsame⟩ := h.files.openAppend hopen
    refine h.move hp rfl (by rintro j ⟨⟩) ?_ trivial hok ?_ h.seen (.inl ⟨rfl, Iff.rfl⟩)
    · rcases hsame with hsame | hmissing
      · exact .inl hsame
      · exact .inr fun q _ => h.idle_of_missing hmissing q
    · exact hfile ▸ h.sequential
  | @openRead p i hp hcall hopen => exact h.setPhase hp (by rintro j ⟨⟩) trivial Iff.rfl
  | @openMissing p hp hcall hopen =>
    refine h.setPhase hp (by rintro j ⟨⟩) trivial (iff_of_false (not_effective_failure rfl) ?_)
    rintro ⟨⟨⟩, -⟩
  | @lock p i hp hlock =>
    refine h.setPhase hp ?_ ?_ Iff.rfl
    · rintro j ⟨⟩
      exact .inr hlock
    · exact hcurrent p i hp (Function.update_self ..)
  | @compute p i stmt text hp hcall htext =>
    have hpath : s.files.path = some i := h.path_at hp rfl
    rw [← TableFiles.file_of_path hpath] at htext ⊢
    exact h.setPhase hp (fun j hj => .inl hj) ⟨hpath, stmt, hcall, htext, rfl⟩ Iff.rfl
  | @refuse p i stmt hp hcall htext => exact h.fail hp rfl
  | @buffer p i row text hp =>
    have hknows := h.knows_at hp
    exact h.setPhase hp (fun j hj => .inl hj) hknows Iff.rfl
  | @flush p i row text hp hsize =>
    obtain ⟨hpath, stmt, hcall, htext, rfl⟩ := h.knows_at hp
    obtain ⟨hok, hfile⟩ := h.files.append hpath text
    rw [← TableFiles.file_of_path hpath] at hsize
    refine h.effect hp rfl (not_shared_insert hcall) hok rfl ?_
    rw [hfile]
    exact h.sequential.insert hcall htext hsize
  | @readTable p i status hp hcall hstatus =>
    have hpath : s.files.path = some i := h.path_at hp rfl
    refine h.move hp rfl (fun j hj => .inl hj) (.inl rfl) trivial h.files h.sequential ?_
      (.inl ⟨rfl, ?_⟩)
    · intro r hr
      rcases List.mem_append.mp hr with hr | hr
      · exact h.seen r hr
      · obtain rfl := List.mem_singleton.mp hr
        refine ⟨s.log, List.prefix_refl _, ?_⟩
        dsimp only
        rw [← TableFiles.file_of_path hpath]
        exact h.sequential
    · -- a call that only reads has no effect
      have hshared : (call p).Shared := hcall
      exact iff_of_false (fun heff => heff.2 hshared) (fun heff => heff.2 hshared)
  | @load p i stmt table hp hcall hload =>
    have hpath : s.files.path = some i := h.path_at hp rfl
    rw [← TableFiles.file_of_path hpath] at hload
    exact h.setPhase hp (fun j hj => .inl hj) ⟨hpath, ⟨stmt, hcall⟩, hload⟩ Iff.rfl
  | @loadFails p i stmt hp hcall hload => exact h.fail hp rfl
  | @openTemp p i table files temp hp hopen =>
    obtain ⟨hpath, ⟨stmt, hcall⟩, hload⟩ := h.knows_at hp
    obtain ⟨hok, hpath', hfile, htemp, hempty⟩ := h.files.openTemp hopen
    refine h.move hp rfl (fun j hj => .inl hj)
      (.inr (h.alone hp rfl (not_shared_delete hcall))) ?_ hok ?_ h.seen (.inl ⟨rfl, Iff.rfl⟩)
    · refine ⟨hpath'.trans hpath, ⟨stmt, hcall⟩, ?_, htemp, hempty⟩
      rw [← hload]
      exact congrArg storageLoadTableFromFp hfile
    · exact hfile ▸ h.sequential
  | @copy p i stmt table temp text deletedCount status hp hcall htext =>
    obtain ⟨hpath, -, hload, htemp, hempty⟩ := h.knows_at hp
    obtain ⟨hok, hfile, hcontent⟩ := h.files.overwrite htemp hempty text
    refine h.move hp rfl (fun j hj => .inl hj)
      (.inr (h.alone hp rfl (not_shared_delete hcall))) ?_ hok ?_ h.seen (.inl ⟨rfl, Iff.rfl⟩)
    · refine ⟨hpath, stmt, temp, deletedCount, hcall, ?_, htemp, ?_⟩
      · rw [← hload]
        exact congrArg storageLoadTableFromFp hfile
      · rw [htext]
        exact congrArg (fun content => (content, deletedCount, status)) hcontent.symm
    · exact hfile ▸ h.sequential
  | @rename p i temp table hp htemp =>
    obtain ⟨hpath, stmt, temp', deletedCount, hcall, hload, htemp', htext⟩ := h.knows_at hp
    obtain rfl : temp = temp' := Option.some.inj (htemp.symm.trans htemp')
    obtain ⟨hok, hfile⟩ := h.files.rename htemp
    refine h.effect hp rfl (not_shared_delete hcall) hok rfl ?_
    rw [hfile]
    exact h.sequential.delete hcall hload htext
  | @renameFails p i table hp htemp => exact h.fail hp rfl
  | @abandon p i table hp =>
    obtain ⟨hpath, stmt, temp, deletedCount, hcall, -⟩ := h.knows_at hp
    obtain ⟨hok, hfile⟩ := h.files.removeTemp
    refine h.move hp rfl (fun j hj => .inl hj)
      (.inr (h.alone hp rfl (not_shared_delete hcall))) trivial hok ?_ h.seen (.inl ⟨rfl, ?_⟩)
    · exact hfile ▸ h.sequential
    · exact iff_of_false (not_effective_failure rfl) (not_effective_of_works rfl)
  | @unlock p i status hp => exact h.setPhase hp (by rintro j ⟨⟩) trivial Iff.rfl
  | @close p status hp => exact h.setPhase hp (by rintro j ⟨⟩) trivial Iff.rfl

/-- With locks on the inode at the path, the calls have their effects one after the other. -/
lemma ReachableCurrent.inv {initial : Option CString} (h : s.ReachableCurrent initial call) :
    s.Inv (initial.getD []) call := by
  induction h with
  | refl => exact inv_start initial call
  | tail _ hstep ih => exact ih.step hstep.1 hstep.2

end StorageRun

/-! ### A statement for examples -/

/-- `INSERT INTO t (x) VALUES ('<v>')` -/
def insertX (v : String) : InsertStatement :=
  ⟨identifier "t", [identifier "x"], [.truncate 255 (bytes v)], by decide, rfl⟩

end MiniDbms
