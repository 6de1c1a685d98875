import LsxKit.Diagnosis.Engine

/-!
# Problems of open documents

The latest problems of every document, by URI, in the order in which the documents were first
published. Problems of an older version never replace those of a newer one.

* `Store.publish`, `Store.update`, `Store.close`, `Store.clear`: the operations.
-/

namespace LsxKit

/-- The problems of a version of a document. -/
structure Report where
  version : Int
  problems : List Problem
  deriving Repr, DecidableEq

/-- The latest problems of every open document. -/
structure Store where
  reports : Entries String Report
  deriving Repr

namespace Store

/-- No documents. -/
def empty : Store := ⟨[]⟩

/-- The problems of a document. -/
def get? (s : Store) (uri : String) : Option (List Problem) :=
  (s.reports.get? uri).map Report.problems

/-- The version whose problems are stored. -/
def version? (s : Store) (uri : String) : Option Int := (s.reports.get? uri).map Report.version

/-- Whether problems of a version may be stored: unless those of a newer one are. -/
def accepts (s : Store) (uri : String) (version : Int) : Bool :=
  match s.reports.get? uri with
  | some report => report.version ≤ version
  | none => true

/-- Stores problems, if they may be stored, and tells whether they were. -/
def publish (s : Store) (uri : String) (version : Int) (problems : List Problem) : Store × Bool :=
  if s.accepts uri version then (⟨s.reports.insert uri ⟨version, problems⟩⟩, true) else (s, false)

/-- Checks a document with the engines that apply to it and stores the problems; does nothing if
no engine applies. -/
def update (s : Store) (engines : List Engine) (d : TextDocument) : Store × Bool :=
  match engines.filter (·.applies d) with
  | [] => (s, false)
  | applicable => s.publish d.uri d.version (applicable.flatMap (·.problems d))

/-- Forgets a document and gives back its problems. -/
def close (s : Store) (uri : String) : Store × Option (List Problem) :=
  (⟨s.reports.erase uri⟩, s.get? uri)

/-- Forgets all documents. -/
def clear (_ : Store) : Store := empty

/-- The documents with their problems, in order. -/
def toList (s : Store) : List (String × List Problem) :=
  s.reports.map fun (uri, report) => (uri, report.problems)

/-- The number of documents. -/
def size (s : Store) : Nat := s.reports.length

/-- The number of problems of all documents. -/
def problemCount (s : Store) : Nat := (s.toList.flatMap fun (_, problems) => problems).length

end Store

end LsxKit
