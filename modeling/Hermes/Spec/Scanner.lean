import Hermes.Spec.Persistence

/-!
# The file scanner (`kernel/scanner.py`)

Sweeps of any number of `FileScanner`s that share a `PersistenceRegistry`. What a sweep finds on the
disk is its input; it finds it without an error. What Python does with the texts of paths is a
parameter. Left out: logging, and `interval`.
-/

namespace Hermes

/-- A path that a directory listing gives. -/
structure FileEntry where
  path : String
  isFile : Bool := true
  suffix : String
  resolved : String
  deriving DecidableEq, Repr

/-- What is on the disk: the paths that exist, and what `rglob("*")` and `glob("*")` give. -/
structure Directories where
  present : String → Bool
  rglob : String → List FileEntry
  glob : String → List FileEntry

/-- `str.lower`, and `mimetypes.guess_type(path)[0]`. -/
structure PathTexts where
  lower : String → String
  guessType : String → Option String

/-- `DEFAULT_EXTENSIONS`. -/
def defaultExtensions : List String := [".md", ".pdf", ".txt"]

/-- `_MIME_MAP`. -/
def mimeMap : List (String × String) :=
  [(".md", "text/markdown"), (".markdown", "text/markdown"), (".txt", "text/plain"),
    (".pdf", "application/pdf"), (".json", "application/json"), (".csv", "text/csv"),
    (".html", "text/html")]

/-- A `document.scanned` event. -/
structure ScannedEvent where
  source : String
  path : String
  mimeType : Option String
  workspaceId : String
  deriving DecidableEq, Repr

/-- The arguments of a `FileScanner`. -/
structure ScannerArgs where
  workspaceId : String
  paths : List String
  extensions : List String := defaultExtensions
  recursive : Bool := true

/-- A `FileScanner`. -/
structure FileScanner where
  workspaceId : String
  paths : List String
  extensions : List String
  recursive : Bool
  running : Bool := false
  seen : Finset String := ∅

namespace FileScanner

variable (T : PathTexts) (sc : FileScanner)

/-- `__init__`, with the extensions in lower case and with their dots. -/
def init (args : ScannerArgs) : FileScanner where
  workspaceId := args.workspaceId
  paths := args.paths
  extensions := args.extensions.map fun e => T.lower (if e.toList.head? = some '.' then e else "." ++ e)
  recursive := args.recursive

/-- `_iter_files`. -/
def iterFiles (dirs : Directories) : List FileEntry :=
  sc.paths.flatMap fun base =>
    if dirs.present base then
      (if sc.recursive then dirs.rglob base else dirs.glob base).filter fun p =>
        p.isFile && sc.extensions.contains (T.lower p.suffix)
    else []

/-- `_make_event`. -/
def makeEvent (p : FileEntry) : ScannedEvent where
  source := "scanner:" ++ sc.workspaceId
  path := p.resolved
  mimeType := (mimeMap.lookup (T.lower p.suffix)).or (T.guessType p.path)
  workspaceId := sc.workspaceId

/-- `self._seen.add(key)`. -/
def see (key : String) : FileScanner := { sc with seen := insert key sc.seen }

variable {δ : Type}

/-- `scan_once`: what it publishes. -/
def scanOnce (skipPersisted : Bool) (persistence : Option (PersistenceRegistry δ))
    (dirs : Directories) : List ScannedEvent × FileScanner :=
  (sc.iterFiles T dirs).foldl
    (fun acc p =>
      if skipPersisted && persistence.any fun db => db.containsMarker ("scanned:" ++ p.resolved) then
        (acc.1, acc.2.see p.resolved)
      else (acc.1 ++ [acc.2.makeEvent T p], acc.2.see p.resolved))
    ([], sc)

/-- `_scan_new`: what it publishes. -/
def scanNew (dirs : Directories) : List ScannedEvent × FileScanner :=
  (sc.iterFiles T dirs).foldl
    (fun acc p =>
      if p.resolved ∈ acc.2.seen then acc
      else (acc.1 ++ [(acc.2.see p.resolved).makeEvent T p], acc.2.see p.resolved))
    ([], sc)

/-- A file is there that the scanner looks for. -/
def Finds (dirs : Directories) (path : String) : Prop :=
  ∃ base ∈ sc.paths, dirs.present base ∧
    ∃ p ∈ if sc.recursive then dirs.rglob base else dirs.glob base,
      p.isFile ∧ T.lower p.suffix ∈ sc.extensions ∧ p.resolved = path

end FileScanner

/-- What happens: a path is marked, or a scanner makes a sweep, if it does so now: `start` and the loop
of `_watch_loop` look whether it is running. -/
inductive ScanStep where
  | mark (key workspaceId value : String)
  | scanOnce (n : ℕ) (dirs : Directories)
  | start (n : ℕ) (dirs : Directories)
  | watch (n : ℕ) (dirs : Directories)
  | stop (n : ℕ)

/-- Scanners and the database that they share, with the marks that were made, each for a workspace,
and what each scanner has come upon. -/
structure Scanners (δ : Type) where
  scanners : ℕ → FileScanner
  db : PersistenceRegistry δ
  marks : List (String × String) := []
  found : List (ℕ × String) := []

namespace Scanners

variable {δ : Type} (T : PathTexts) (s : Scanners δ)

/-- Scanners that share a database in a file. -/
def init (args : ℕ → ScannerArgs) : Scanners δ where
  scanners n := .init T (args n)
  db := { shared := true }

/-- The `n`-th scanner has made a sweep. -/
def swept (n : ℕ) (dirs : Directories) (after : FileScanner) : Scanners δ :=
  { s with
    scanners := Function.update s.scanners n after
    found := s.found ++ ((s.scanners n).iterFiles T dirs).map fun p => (n, p.resolved) }

/-- What is published, and what is then. -/
def perform : ScanStep → List ScannedEvent × Scanners δ
  | .mark key workspaceId value =>
    ([], { s with db := s.db.mark key workspaceId value, marks := s.marks ++ [(key, workspaceId)] })
  | .scanOnce n dirs =>
    let (events, after) := (s.scanners n).scanOnce T true (some s.db) dirs
    (events, s.swept T n dirs after)
  | .start n dirs =>
    if (s.scanners n).running then ([], s)
    else
      let (events, after) := (s.scanners n).scanNew T dirs
      (events, s.swept T n dirs { after with running := true })
  | .watch n dirs =>
    if (s.scanners n).running then
      let (events, after) := (s.scanners n).scanNew T dirs
      (events, s.swept T n dirs after)
    else ([], s)
  | .stop n =>
    ([], { s with
      scanners := Function.update s.scanners n { s.scanners n with running := false } })

def step (e : ScanStep) : Scanners δ := (s.perform T e).2

/-- The path is marked for the workspace. -/
def MarkedFor (path workspaceId : String) : Prop := ("scanned:" ++ path, workspaceId) ∈ s.marks

/-- The scanner publishes events of its workspace, for these paths. -/
structure Publishes (n : ℕ) (events : List ScannedEvent) (paths : String → Prop) : Prop where
  workspace : ∀ ev ∈ events, ev.workspaceId = (s.scanners n).workspaceId
  paths : ∀ path, (∃ ev ∈ events, ev.path = path) ↔ paths path

/-- Each sweep publishes the files that are there and not marked for the workspace of its scanner,
and, in `start` and the watch loop, not already come upon by it. -/
def UnmarkedOnly : ScanStep → Prop
  | .scanOnce n dirs => s.Publishes n (s.perform T (.scanOnce n dirs)).1 fun path =>
      (s.scanners n).Finds T dirs path ∧ ¬ s.MarkedFor path (s.scanners n).workspaceId
  | .start n dirs => (s.scanners n).running = false →
      s.Publishes n (s.perform T (.start n dirs)).1 fun path =>
        (s.scanners n).Finds T dirs path ∧ ¬ s.MarkedFor path (s.scanners n).workspaceId ∧
          (n, path) ∉ s.found
  | .watch n dirs => (s.scanners n).running = true →
      s.Publishes n (s.perform T (.watch n dirs)).1 fun path =>
        (s.scanners n).Finds T dirs path ∧ ¬ s.MarkedFor path (s.scanners n).workspaceId ∧
          (n, path) ∉ s.found
  | _ => True

/-- `scan_once` publishes the files that are there and not marked for anyone, and none that is not
there or is marked for its workspace. The sweeps of `start` and of the watch loop publish the files
that are there and not already come upon, whatever is marked. -/
def NewOnly : ScanStep → Prop
  | .scanOnce n dirs =>
    (∀ ev ∈ (s.perform T (.scanOnce n dirs)).1, ev.workspaceId = (s.scanners n).workspaceId ∧
        (s.scanners n).Finds T dirs ev.path ∧ ¬ s.MarkedFor ev.path (s.scanners n).workspaceId) ∧
      ∀ path, (s.scanners n).Finds T dirs path → (∀ workspaceId, ¬ s.MarkedFor path workspaceId) →
        ∃ ev ∈ (s.perform T (.scanOnce n dirs)).1, ev.path = path
  | .start n dirs => s.Publishes n (s.perform T (.start n dirs)).1 fun path =>
      (s.scanners n).running = false ∧ (s.scanners n).Finds T dirs path ∧ (n, path) ∉ s.found
  | .watch n dirs => s.Publishes n (s.perform T (.watch n dirs)).1 fun path =>
      (s.scanners n).running = true ∧ (s.scanners n).Finds T dirs path ∧ (n, path) ∉ s.found
  | _ => True

end Scanners

end Hermes
