/-!
# Errors

Every way in which a request, a setting or a stored row can be refused.  `Error.kind` sorts the
causes into three kinds and `Error.message` words each of them.
-/

namespace Caseload

/-- Who has to mend an error: the one who asks, the one who sets the program up, or neither. -/
inductive ErrorKind
  /-- What was asked for is not acceptable. -/
  | validation
  /-- What was set up locally is out of range. -/
  | configuration
  /-- Something failed on this side. -/
  | internal
  deriving DecidableEq, Repr

namespace ErrorKind

def name : ErrorKind → String
  | validation => "validation"
  | configuration => "configuration"
  | internal => "internal"

/-- A wording with the kind in front of it. -/
def label (kind : ErrorKind) (detail : String) : String :=
  s!"{kind.name} error: {detail}"

end ErrorKind

/-- Why a text is not an integer of 64 bits. -/
inductive IntegerFault
  /-- There is no digit, or something else than a digit. -/
  | invalidDigit
  /-- The number is above the largest one. -/
  | tooLarge
  /-- The number is below the smallest one. -/
  | tooSmall
  deriving DecidableEq, Repr

namespace IntegerFault

def message : IntegerFault → String
  | invalidDigit => "invalid digit found in string"
  | tooLarge => "number too large to fit in target type"
  | tooSmall => "number too small to fit in target type"

end IntegerFault

/-- What went wrong with a statement sent to the database, or with a row of its answer, in the words
of the connection. -/
structure StatementFailure where
  message : String
  deriving DecidableEq, Repr

/-- What the program was doing when a statement failed. -/
inductive Stage
  /-- Opening the transaction that saves a task. -/
  | start
  /-- Writing the row of a task. -/
  | saveTask (task : String)
  /-- Removing the role rows that a task had before. -/
  | clearRoles (task : String)
  /-- Writing one role row of a task. -/
  | saveRole (role task : String)
  /-- Closing the transaction that saves a task. -/
  | commit (task : String)
  /-- Listing tasks. -/
  | listTasks
  /-- Listing the role rows of listed tasks. -/
  | loadRoles
  /-- Counting tasks. -/
  | countTasks
  /-- Listing role rows that match. -/
  | matchRoles
  deriving DecidableEq, Repr

namespace Stage

/-- The wording of a failure in this stage. -/
def message : Stage → String
  | start => "failed to start task save transaction"
  | saveTask task => s!"failed to save task '{task}'"
  | clearRoles task => s!"failed to clear role rows for task '{task}'"
  | saveRole role task => s!"failed to save role row '{role}' for task '{task}'"
  | commit task => s!"failed to commit task '{task}'"
  | listTasks => "failed to search tasks"
  | loadRoles => "failed to load task role rows"
  | countTasks => "failed to count tasks"
  | matchRoles => "failed to list matching task roles"

end Stage

/-- The causes for which the program refuses to go on. -/
inductive Error
  /-- A text names no permission. -/
  | unknownPermission (value : String)
  /-- A text names no task state. -/
  | unknownState (value : String)
  /-- A text names no security classification. -/
  | unknownClassification (value : String)
  /-- A search without a single filter value. -/
  | noFilter
  /-- A file that is not there, or is no text. -/
  | unreadable (label path : String)
  /-- A file whose text is not what its label says. -/
  | malformed (label path : String)
  /-- A setting that has to be given is not. -/
  | missingSetting (name : String)
  /-- A setting that has to be an integer is not. -/
  | invalidInteger (name : String) (fault : IntegerFault)
  /-- A setting names no task store. -/
  | unknownStore (value : String)
  /-- A setting names no view of the result. -/
  | unknownView (value : String)
  /-- The setting for permissions holds separators only. -/
  | noPermission
  /-- A page before the first one. -/
  | negativeOffset (offset : Int64)
  /-- A page without room for a single task. -/
  | limitBelowOne (limit : Int64)
  /-- A page limit that a statement cannot carry. -/
  | limitTooLarge
  /-- A page offset that a statement cannot carry. -/
  | offsetTooLarge
  /-- A statement failed. -/
  | statement (stage : Stage) (failure : StatementFailure)
  /-- The database counted less than no task. -/
  | negativeCount (count : Int64)
  /-- A stored task has a state that is none. -/
  | storedState (task value : String)
  /-- A stored task has a classification that is none. -/
  | storedClassification (task value : String)
  /-- No connection to the database. -/
  | unreachableDatabase
  deriving DecidableEq, Repr

namespace Error

def kind : Error → ErrorKind
  | negativeOffset _ | limitBelowOne _ => .configuration
  | statement _ _ | negativeCount _ | storedState _ _ | storedClassification _ _
  | unreachableDatabase => .internal
  | _ => .validation

/-- The wording of a text that names none of the things that `subject` says. -/
def noSuch (subject value : String) : String :=
  s!"unknown {subject} '{value}'"

/-- The wording of a stored task in which a text names none of the things that `subject` says;
`part` says what the text is of the task. -/
def noSuchStored (task part subject value : String) : String :=
  s!"task '{task}' has an invalid stored {part}: " ++
    ErrorKind.validation.label (noSuch subject value)

/-- The wording of a cause without its kind.  A file that cannot be read or decoded and a database
that cannot be reached have reasons beyond this program, in the words of the system, of the reader
of JSON and of the connection.  Those follow after a colon and are left out here. -/
def detail : Error → String
  | unknownPermission value => noSuch "permission value" value
  | unknownState value => noSuch "task state" value
  | unknownClassification value => noSuch "classification" value
  | noFilter => "search requests must include at least one filter value"
  | unreadable label path => s!"failed to read {label} from '{path}'"
  | malformed label path => s!"invalid {label} in '{path}'"
  | missingSetting name => s!"{name} is required"
  | invalidInteger name fault => s!"invalid {name}: {fault.message}"
  | unknownStore value => s!"TASK_STORE must be either 'memory' or 'postgres', got '{value}'"
  | unknownView value => s!"SEARCH_VIEW must be either 'tasks' or 'summaries', got '{value}'"
  | noPermission => "SEARCH_PERMISSIONS must name at least one permission"
  | negativeOffset offset => s!"page offset must not be negative, got {offset.toInt}"
  | limitBelowOne limit => s!"page limit must be at least 1, got {limit.toInt}"
  | limitTooLarge => s!"invalid task query limit: {IntegerFault.tooLarge.message}"
  | offsetTooLarge => s!"invalid task query offset: {IntegerFault.tooLarge.message}"
  | statement stage failure => s!"{stage.message}: {failure.message}"
  | negativeCount count => s!"invalid task count {count.toInt}: {IntegerFault.tooSmall.message}"
  | storedState task value => noSuchStored task "state" "task state" value
  | storedClassification task value =>
    noSuchStored task "classification" "classification" value
  | unreachableDatabase => "failed to connect to database"

/-- The full wording of a cause: its kind, then what happened. -/
def message (e : Error) : String :=
  e.kind.label e.detail

end Error

end Caseload
