import BytecodeParity.Baselines
import BytecodeParity.Notice
import BytecodeParity.Report
import BytecodeParity.Sanity

set_option autoImplicit false

namespace BytecodeParity

structure Session where
  keepGoing : Bool
  baselines : Baselines
  /-- Every record built so far, in order. -/
  seen : List ClassRecord
  classes : List ClassReport
  log : List LogEntry
deriving DecidableEq

namespace Session

def start (keepGoing : Bool) : Session :=
  ⟨keepGoing, .empty, [], [], []⟩

def notices (session : Session) : List Notice :=
  noticesOf session.log

def note (session : Session) (entries : List LogEntry) : Session :=
  { session with log := session.log ++ entries }

/-- Changes the report of a class, which is opened at the end when there is none yet. -/
def updateReport (className : Option String) (change : ClassReport → ClassReport) :
    List ClassReport → List ClassReport
  | [] => [change (.empty className)]
  | report :: rest =>
      if report.className = className then change report :: rest
      else report :: updateReport className change rest

def isHalted (session : Session) (className : Option String) : Bool :=
  session.classes.any fun report => report.className = className && report.halted

def fail (session : Session) (className : Option String) (missing : MissingBody) : Session :=
  { session with
    classes := updateReport className
      (fun report => { report with buildFailures := report.buildFailures ++ [.ofMissing missing] }) session.classes
    log := session.log ++ [.notice (.buildFailed missing)] }

def history (session : Session) (className : Option String) : List ClassRecord :=
  session.seen.filter fun record => record.className = className

def acceptedEntries (record : ClassRecord) : Accepted → List LogEntry
  | .baseline => [.baselineKept record.className record.version, .baselineEntered record.className record.version]
  | .compared previous => [.sameAsPrevious record.className record.version previous]

def offer (session : Session) (record : ClassRecord) : Session :=
  let (judged, baselines) := session.baselines.accumulate record
  let session := { session with baselines := baselines, seen := session.seen ++ [record] }
  match judged with
  | .ok accepted =>
      { session with
        classes := updateReport record.className
          (fun report => { report with versions := report.versions ++ [record.version] }) session.classes
        log := session.log ++ acceptedEntries record accepted }
  | .error divergence =>
      let divergence := divergence.withHistory (session.history record.className)
      { session with
        classes := updateReport record.className
          (fun report => { report with
            divergences := report.divergences ++ [divergence]
            halted := !session.keepGoing }) session.classes
        log := session.log ++ [.notice (.divergenceFound divergence)] }

def enter (session : Session) (className : Option String) : Except MissingBody ClassRecord → Session
  | .ok record => session.offer record
  | .error missing => session.fail className missing

/-- The records of the classes that ended without divergence and without failed build. -/
def consistentRecords (session : Session) : List ClassRecord :=
  session.seen.filter fun record =>
    session.classes.any fun report => report.className = record.className && report.isConsistent

def sanityNotices (records : List ClassRecord) : List Notice :=
  (Sanity.differing records).map fun group => .recordsDiffer group.className group.records.length

/-- The report, unless the final check finds a difference; and the session with what the check has logged. -/
def finish (session : Session) (generatedAt : String) (mode : RunMode) (versions : List String) :
    Option Report × Session :=
  let records := session.consistentRecords
  (if Sanity.check records then some ⟨generatedAt, mode, versions, session.classes⟩ else none,
    session.note (.checking :: (sanityNotices records).map .notice))

end Session

end BytecodeParity
