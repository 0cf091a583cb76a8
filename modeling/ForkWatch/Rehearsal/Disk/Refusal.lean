import ForkWatch.Text.Quoted
import ForkWatch.Text.Utf8
import ForkWatch.WatchError

/-! # Tables that cannot be used

Why a table of checkpoints cannot be opened, read or written. A name may be flawed before anything
is opened; all else is told with a number.
-/

namespace ForkWatch.Rehearsal

inductive Refusal where
  | undecodable (flaw : Text.Utf8.Flaw)
  | unknownValue (value parameter : String)
  | unknownParameter (parameter : String)
  /-- A name with a NUL in it. -/
  | nul
  | badAuthority (authority : String)
  | noSuchMode (kind value : String)
  | modeNotAllowed (value : String)
  | noSuchSystem (name : String)
  | unsupported
  | noSuchColumn (name : String)
  | noSuchTable (name : String)
  | noSuchModule (name : String)
  /-- A view that is made from itself. -/
  | circular (view : String)
  | indexExists (name : String)
  | unchangeable (view : String)
  | locked
  | readOnly
  | malformed
  /-- The list of what a database contains is not sound; the detail may be empty. -/
  | badSchema (object detail : String)
  | cannotOpen
  | lockingProtocol
  | notTable
  | unreadable
  /-- A change was broken off and cannot be taken back. -/
  | unrecoverable
  | unknownRights
  | unlockable
  deriving DecidableEq, Repr

namespace Refusal

def misconfigured (detail : String) : String := s!"error with configuration: {detail}"

def refused (code : Nat) (detail : String) : String :=
  s!"error returned from database: (code: {code}) {detail}"

def message : Refusal → String
  | undecodable flaw => misconfigured flaw.message
  | unknownValue value parameter =>
    misconfigured ("unknown value " ++ Text.quoted value ++ " for `" ++ parameter ++ "`")
  | unknownParameter parameter =>
    misconfigured ("unknown query parameter `" ++ parameter ++ "` while parsing connection URL")
  | nul =>
    "error communicating with database: filename passed to SQLite must not contain nul bytes"
  | badAuthority authority => refused 1 ("invalid uri authority: " ++ authority)
  | noSuchMode kind value => refused 1 ("no such " ++ kind ++ " mode: " ++ value)
  | modeNotAllowed value => refused 3 ("access mode not allowed: " ++ value)
  | noSuchSystem name => refused 1 ("no such vfs: " ++ name)
  | unsupported => refused 1 "unsupported file format"
  | noSuchColumn name => refused 1 ("no such column: " ++ name)
  | noSuchTable name => refused 1 ("no such table: " ++ name)
  | noSuchModule name => refused 1 ("no such module: " ++ name)
  | circular view => refused 1 ("view " ++ view ++ " is circularly defined")
  | indexExists name => refused 1 ("there is already an index named " ++ name)
  | unchangeable view => refused 1 ("cannot modify " ++ view ++ " because it is a view")
  | locked => refused 5 "database is locked"
  | readOnly => refused 8 "attempt to write a readonly database"
  | malformed => refused 11 "database disk image is malformed"
  | badSchema object detail =>
    refused 11 ("malformed database schema (" ++ object ++ ")" ++
      if detail.isEmpty then "" else " - " ++ detail)
  | cannotOpen => refused 14 "unable to open database file"
  | lockingProtocol => refused 15 "locking protocol"
  | notTable => refused 26 "file is not a database"
  | unreadable => refused 266 "disk I/O error"
  | unrecoverable => refused 776 "attempt to write a readonly database"
  | unknownRights => refused 1802 "disk I/O error"
  | unlockable => refused 3850 "disk I/O error"

def toError (r : Refusal) : WatchError := .storage r.message

end Refusal

end ForkWatch.Rehearsal
