import Mathlib.Data.Nat.Basic

/-!
# Stats — what the sink reports

The counters of `stats.rs`.  Everything is counted twice: since the start, and since the last
report.

* `Counter`, `Stats` — the counters, and the operations that count;
* `Report`, `Stats.printReport` — a report, which begins a new window;
* `Stats.Adds` — what an operation adds to each counter.

Rates and the free disk space are floating point numbers and are left out.
-/

namespace S3Sink

structure Counter where
  aggregate : Nat
  window : Nat
  deriving DecidableEq, Repr

def Counter.inc (self : Counter) (len : Nat) : Counter :=
  ⟨self.aggregate + len, self.window + len⟩

structure Stats where
  recordCount : Counter
  bytesConsumed : Counter
  filesSealed : Counter
  successUploads : Counter
  failureUploads : Counter
  dormantFiles : Counter
  deriving DecidableEq, Repr

/-- What is counted. -/
inductive Figure
  | recordCount
  | bytesConsumed
  | filesSealed
  | successUploads
  | failureUploads
  | dormantFiles
  deriving DecidableEq, Repr

/-- What is printed of a report: the snapshot, and the figures of the window and of the run. -/
structure Report where
  activeFiles : Nat
  inFlightUploads : Nat
  offsetsSizeB : Nat
  window : Figure → Nat
  windowMbConsumed : Nat
  aggregate : Figure → Nat
  aggregateMbConsumed : Nat

namespace Stats

def oneMb : Nat := 1024 * 1024

def new : Stats :=
  { recordCount := ⟨0, 0⟩
    bytesConsumed := ⟨0, 0⟩
    filesSealed := ⟨0, 0⟩
    successUploads := ⟨0, 0⟩
    failureUploads := ⟨0, 0⟩
    dormantFiles := ⟨0, 0⟩ }

def counter (self : Stats) : Figure → Counter
  | .recordCount => self.recordCount
  | .bytesConsumed => self.bytesConsumed
  | .filesSealed => self.filesSealed
  | .successUploads => self.successUploads
  | .failureUploads => self.failureUploads
  | .dormantFiles => self.dormantFiles

def incBytesConsumed (self : Stats) (len : Nat) : Stats :=
  { self with
    bytesConsumed := self.bytesConsumed.inc len
    recordCount := self.recordCount.inc 1 }

def incSuccessUploads (self : Stats) : Stats :=
  { self with successUploads := self.successUploads.inc 1 }

def incFailureUploads (self : Stats) : Stats :=
  { self with failureUploads := self.failureUploads.inc 1 }

def incFilesSealed (self : Stats) : Stats :=
  { self with filesSealed := self.filesSealed.inc 1 }

def incDormantFiles (self : Stats) : Stats :=
  { self with dormantFiles := self.dormantFiles.inc 1 }

def resetWindow (self : Stats) : Stats :=
  { recordCount := { self.recordCount with window := 0 }
    bytesConsumed := { self.bytesConsumed with window := 0 }
    filesSealed := { self.filesSealed with window := 0 }
    successUploads := { self.successUploads with window := 0 }
    failureUploads := { self.failureUploads with window := 0 }
    dormantFiles := { self.dormantFiles with window := 0 } }

def printReport (self : Stats) (activeFileCount inFlightUploads offsetsSize : Nat) :
    Report × Stats :=
  ({ activeFiles := activeFileCount
     inFlightUploads := inFlightUploads
     offsetsSizeB := offsetsSize
     window := fun figure => (self.counter figure).window
     windowMbConsumed := self.bytesConsumed.window / oneMb
     aggregate := fun figure => (self.counter figure).aggregate
     aggregateMbConsumed := self.bytesConsumed.aggregate / oneMb },
    self.resetWindow)

theorem counter_resetWindow (self : Stats) (figure : Figure) :
    self.resetWindow.counter figure = ⟨(self.counter figure).aggregate, 0⟩ := by
  cases figure <;> rfl

/-! ## What an operation adds -/

/-- Every counter is increased by its amount. -/
def Adds (self self' : Stats) (amount : Figure → Nat) : Prop :=
  ∀ figure, self'.counter figure = (self.counter figure).inc (amount figure)

theorem Adds.zero (self : Stats) : Adds self self fun _ => 0 :=
  fun _ => rfl

theorem Adds.trans {self self' self'' : Stats} {amount amount' : Figure → Nat}
    (h : Adds self self' amount) (h' : Adds self' self'' amount') :
    Adds self self'' fun figure => amount figure + amount' figure := by
  intro figure
  rw [h' figure, h figure]
  simp only [Counter.inc, Nat.add_assoc]

theorem Adds.of_eq {self self' : Stats} {amount amount' : Figure → Nat}
    (h : Adds self self' amount) (heq : ∀ figure, amount figure = amount' figure) :
    Adds self self' amount' :=
  fun figure => heq figure ▸ h figure

/-- So many of one figure. -/
def amountOf (figure : Figure) (n : Nat) : Figure → Nat :=
  fun figure' => if figure' = figure then n else 0

/-- A line of the given length. -/
def lineAmount (len : Nat) : Figure → Nat
  | .recordCount => 1
  | .bytesConsumed => len
  | _ => 0

theorem adds_incBytesConsumed (self : Stats) (len : Nat) :
    Adds self (self.incBytesConsumed len) (lineAmount len) := by
  intro figure
  cases figure <;> rfl

theorem adds_incFilesSealed (self : Stats) :
    Adds self self.incFilesSealed (amountOf .filesSealed 1) := by
  intro figure
  cases figure <;> rfl

theorem adds_incDormantFiles (self : Stats) :
    Adds self self.incDormantFiles (amountOf .dormantFiles 1) := by
  intro figure
  cases figure <;> rfl

end Stats

end S3Sink
