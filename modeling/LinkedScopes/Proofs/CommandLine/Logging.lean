import LinkedScopes.CommandLine.Run
import LinkedScopes.Proofs.Journal.Upkeep
import LinkedScopes.Proofs.Scan.Run

/-! A journal is no part of what the program does. The response to a text is made before
anything is written, so asking for a journal adds to a run what keeping it does to the
disk, and one complaint if it cannot be kept. -/
namespace LinkedScopes

namespace Invocation

theorem ofRest_plain {argument : String} (depth : argument ≠ "--max-depth")
    (journal : argument ≠ "--log") (limit : Nat) (log : Option String) (rest : List String) :
    ofRest none limit log (argument :: rest) = ofRest (some argument) limit log rest := by
  rw [ofRest]
  · exact fun same _ => depth same
  · exact fun same _ => journal same
  · exact fun _ _ same _ => depth same
  · exact fun _ _ same _ => journal same

/-- A request for a journal at the end of a command line that is accepted is the one that
counts, and it changes nothing else. -/
theorem ofRest_append_log {file : Option String} {limit : Nat} {log : Option String}
    {arguments : List String} {inv : Invocation} (path : String)
    (accepted : ofRest file limit log arguments = .ok inv) :
    ofRest file limit log (arguments ++ ["--log", path]) = .ok { inv with log := some path } := by
  fun_induction ofRest file limit log arguments with
  | case1 limit log file => cases accepted; rfl
  | case5 _ _ _ value rest limit read ih =>
    simp only [List.cons_append, ofRest, read]
    exact ih accepted
  | case7 _ _ _ _ rest ih => exact ih accepted
  | case8 limit log argument rest depthLast logLast depth journal ih =>
    -- Neither option stands here: it was refused if nothing followed, and else took what did.
    have noDepth : argument ≠ "--max-depth" := by
      intro same
      cases rest with
      | nil => exact depthLast same rfl
      | cons value rest => exact depth value rest same rfl
    have noJournal : argument ≠ "--log" := by
      intro same
      cases rest with
      | nil => exact logLast same rfl
      | cons value rest => exact journal value rest same rfl
    rw [List.cons_append, ofRest_plain noDepth noJournal]
    exact ih accepted
  | _ => cases accepted

theorem ofRest_log_eq {file : Option String} {limit : Nat} {log : Option String}
    {arguments : List String} {inv : Invocation} (unlogged : "--log" ∉ arguments)
    (accepted : ofRest file limit log arguments = .ok inv) : inv.log = log := by
  fun_induction ofRest file limit log arguments with
  | case1 limit log file => cases accepted; rfl
  | case5 _ _ _ value rest limit read ih =>
    exact ih (fun found => unlogged (by simp [found])) accepted
  | case7 _ _ _ _ rest ih => exact absurd List.mem_cons_self unlogged
  | case8 limit log argument rest _ _ _ _ ih =>
    exact ih (fun found => unlogged (List.mem_cons_of_mem _ found)) accepted
  | _ => cases accepted

def Tokenizes (inv : Invocation) (disk : Disk) : Prop :=
  ∃ text tokens, disk.text inv.file = .ok text ∧
    (Source.mk text inv.fileName).tokens = .ok tokens

/-- What the program says, whether or not a journal is kept. -/
def response (inv : Invocation) (disk : Disk) (times : Timings) : Response :=
  match disk.text inv.file with
  | .error failure => .unreadable inv failure.message
  | .ok text => .ofText inv text times

/-- A response is one of three, and which of them is decided by the file alone. -/
theorem response_cases (inv : Invocation) (disk : Disk) :
    (∃ failure, disk.text inv.file = .error failure ∧
      ∀ times, inv.response disk times = .unreadable inv failure.message) ∨
    (∃ text d, disk.text inv.file = .ok text ∧
      (Source.mk text inv.fileName).tokens = .error d ∧
      ∀ times, inv.response disk times = .untokenized ⟨text, inv.fileName⟩ d) ∨
    ∃ text tokens, disk.text inv.file = .ok text ∧
      (Source.mk text inv.fileName).tokens = .ok tokens ∧
      ∀ times, inv.response disk times =
        .parsed ⟨text, inv.fileName⟩ tokens (parse tokens inv.limit) times := by
  unfold response
  cases disk.text inv.file with
  | error failure => exact .inl ⟨failure, rfl, fun _ => rfl⟩
  | ok text =>
    simp only [Response.ofText]
    cases cut : (Source.mk text inv.fileName).tokens with
    | error d => exact .inr (.inl ⟨text, d, rfl, cut, fun _ => rfl⟩)
    | ok tokens => exact .inr (.inr ⟨text, tokens, rfl, cut, fun _ => rfl⟩)

theorem response_log (inv : Invocation) (log : Option String) (disk : Disk) (times : Timings) :
    { inv with log }.response disk times = inv.response disk times := rfl

end Invocation

theorem run_of_accepted {arguments : List String} {inv : Invocation}
    (accepted : Invocation.ofArguments arguments = .ok inv) (disk : Disk) (times : Timings) :
    run arguments disk times = .ofResponse (inv.response disk times) inv.log disk := by
  rw [run, accepted]
  rfl

namespace Response

theorem faulty_events (events : List Event) (said : String) (source : Source) (d : Diagnostic) :
    (faulty events said source d).events = events := by
  rw [faulty]
  cases d.report? source.text <;> rfl

theorem parsed_timeless (source : Source) (tokens : List Token)
    (result : Except Halt Chain × State) (times times' : Timings) :
    (parsed source tokens result times).events = (parsed source tokens result times').events ∧
    (parsed source tokens result times).output = (parsed source tokens result times').output ∧
    (parsed source tokens result times).ending = (parsed source tokens result times').ending := by
  match result with
  | (.ok chain, t) => exact ⟨rfl, rfl, rfl⟩
  | (.error (.fault d), t) =>
    simp only [parsed, faulty]
    cases d.report? source.text <;> exact ⟨rfl, rfl, rfl⟩
  | (.error .exhausted, t) => exact ⟨rfl, rfl, rfl⟩

theorem parsed_events_ne_nil (source : Source) (tokens : List Token)
    (result : Except Halt Chain × State) (times : Timings) :
    (parsed source tokens result times).events ≠ [] := by
  match result with
  | (.ok chain, t) => exact List.cons_ne_nil _ _
  | (.error (.fault d), t) =>
    rw [parsed, faulty_events]
    exact List.cons_ne_nil _ _
  | (.error .exhausted, t) => exact List.cons_ne_nil _ _

/-- How long the stages took is told and not acted on. -/
theorem response_timeless (inv : Invocation) (disk : Disk) (times times' : Timings) :
    (inv.response disk times).events = (inv.response disk times').events ∧
    (inv.response disk times).output = (inv.response disk times').output ∧
    (inv.response disk times).ending = (inv.response disk times').ending := by
  obtain ⟨failure, -, same⟩ | ⟨text, d, -, -, same⟩ | ⟨text, tokens, -, -, same⟩ :=
    inv.response_cases disk
  · rw [same, same]
    exact ⟨rfl, rfl, rfl⟩
  · rw [same, same]
    exact ⟨rfl, rfl, rfl⟩
  · rw [same, same]
    exact parsed_timeless _ _ _ times times'

theorem events_eq_nil_iff (inv : Invocation) (disk : Disk) (times : Timings) :
    (inv.response disk times).events = [] ↔ ¬ inv.Tokenizes disk := by
  obtain ⟨failure, unread, same⟩ | ⟨text, d, read, stuck, same⟩ | ⟨text, tokens, read, cut, same⟩ :=
    inv.response_cases disk
  · rw [same]
    exact iff_of_true rfl (by simp [Invocation.Tokenizes, unread])
  · rw [same]
    exact iff_of_true (faulty_events ..) (by simp [Invocation.Tokenizes, read, stuck])
  · rw [same]
    exact iff_of_false (parsed_events_ne_nil _ _ _ times)
      (not_not_intro ⟨text, tokens, read, cut⟩)

def journal (r : Response) (path : String) (disk : Disk) : Journal :=
  (r.events.map Event.record).foldl Journal.log (.begun path disk)

theorem journal_kept (r : Response) (path : String) (disk : Disk) :
    (r.journal path disk).Kept path disk :=
  (Journal.Kept.unused.foldl (r.events.map Event.record)).1

theorem journal_used {r : Response} (told : r.events ≠ []) (path : String) (disk : Disk) :
    (r.journal path disk).sink ≠ .unused :=
  (Journal.Kept.unused.foldl (r.events.map Event.record)).2 (by simpa using told)

theorem journal_unused {r : Response} (untold : r.events = []) (path : String) (disk : Disk) :
    r.journal path disk = .begun path disk := by
  rw [journal, untold]
  rfl

end Response

/-- Two runs for every way the stages may take their time, without a journal and with one
at a path, differ by the journal alone. -/
structure Unobserved (inv : Invocation) (disk : Disk) (path : String)
    (plain logged : Timings → RunResult) : Prop where
  exit (times times' : Timings) : (logged times').exit = (plain times).exit
  output (times times' : Timings) : (logged times').output = (plain times).output
  /-- A file that cannot be opened when there is something to write is one line more. -/
  refused (times : Timings) {failure : DiskFailure} : inv.Tokenizes disk →
    disk.create path = .error failure → (logged times).complaints =
      Journal.complaint path failure.message ++ "\n" ++ (plain times).complaints
  otherwise (times : Timings) :
    ¬ (inv.Tokenizes disk ∧ ∃ failure, disk.create path = .error failure) →
      (logged times).complaints = (plain times).complaints
  unlogged (times : Timings) : (plain times).disk = disk
  elsewhere (times : Timings) {l : Location} : disk.target path ≠ .ok l →
    (logged times).disk.lookup l = disk.lookup l
  untouched (times : Timings) : ¬ inv.Tokenizes disk → (logged times).disk = disk

namespace RunResult

theorem ofResponse_some (r : Response) (path : String) (disk : Disk) :
    ofResponse r (some path) disk = ⟨r.ending.exit, r.output,
      String.join ((r.journal path disk).complaints.map (· ++ "\n")) ++ r.complaints,
      (r.journal path disk).disk⟩ := rfl

theorem ofResponse_unobserved (inv : Invocation) (disk : Disk) (path : String) :
    Unobserved inv disk path (fun times => ofResponse (inv.response disk times) none disk)
      (fun times => ofResponse (inv.response disk times) (some path) disk) := by
  simp only [ofResponse_some]
  have kept (times : Timings) := (inv.response disk times).journal_kept path disk
  have untold (times : Timings) := Response.events_eq_nil_iff inv disk times
  constructor
  case exit =>
    intro times times'
    obtain ⟨-, -, same⟩ := Response.response_timeless inv disk times' times
    simp only [ofResponse, same]
  case output =>
    intro times times'
    exact (Response.response_timeless inv disk times' times).2.1
  case refused =>
    intro times failure cut refused
    have told : (inv.response disk times).events ≠ [] := fun none => (untold times).mp none cut
    have used := Response.journal_used told path disk
    simp [(kept times).complaints_of_refused used refused, ofResponse]
  case otherwise =>
    intro times fine
    have silent : ((inv.response disk times).journal path disk).complaints = [] := by
      by_cases cut : inv.Tokenizes disk
      · exact (kept times).complaints_of_created fun failure refused => fine ⟨cut, failure, refused⟩
      · rw [Response.journal_unused ((untold times).mpr cut)]
        rfl
    simp [silent, ofResponse]
  case unlogged => exact fun times => rfl
  case elsewhere => exact fun times l elsewhere => (kept times).lookup_eq elsewhere
  case untouched =>
    intro times stuck
    exact congrArg Journal.disk (Response.journal_unused ((untold times).mpr stuck) path disk)

end RunResult

/-- Asking for a journal changes nothing that a run says or leaves behind but the journal
itself. The file at its path is written only once the source has been read and cut into
tokens, so that even the source can serve as its own journal; if no file can be opened
there, that is complained of in one line more. -/
theorem logging_unobserved {arguments : List String} {inv : Invocation}
    (accepted : Invocation.ofArguments arguments = .ok inv) (unlogged : "--log" ∉ arguments)
    (path : String) (disk : Disk) :
    Unobserved inv disk path (run arguments disk) (run (arguments ++ ["--log", path]) disk) := by
  have plain : inv.log = none := Invocation.ofRest_log_eq unlogged accepted
  have logged := Invocation.ofRest_append_log path accepted
  have runs := RunResult.ofResponse_unobserved inv disk path
  have first : run arguments disk =
      fun times => .ofResponse (inv.response disk times) none disk := by
    funext times
    rw [run_of_accepted accepted, plain]
  have second : run (arguments ++ ["--log", path]) disk =
      fun times => .ofResponse (inv.response disk times) (some path) disk := by
    funext times
    rw [run_of_accepted logged, Invocation.response_log]
  rwa [first, second]

/-- An empty text is cut into nothing but its end, which a journal in a folder that is not
there would have told of. -/
theorem logging_unobserved_missing :
    let disk : Disk := ⟨[(Location.working.step "a", .file ByteArray.empty)]⟩
    let inv : Invocation := ⟨"a", defaultLimit, none⟩
    Invocation.ofArguments ["a"] = .ok inv ∧ "--log" ∉ ["a"] ∧ inv.Tokenizes disk ∧
      ∀ times, (run ["a", "--log", "b/c"] disk times).complaints =
        "Error opening log file b/c: No such file or directory (os error 2)" ++ "\n" ++
          (run ["a"] disk times).complaints := by
  have munches : Munches "a" 0 "".toList (.ok [.endOfInput (.ofBytes 0 "a")]) := .ended 0
  have tokens : Source.tokens ⟨"", "a"⟩ = .ok [.endOfInput (.ofBytes 0 "a")] := by
    rw [Source.tokens_of_munches munches]
    rfl
  have name : Invocation.fileName ⟨"a", defaultLimit, none⟩ = "a" := rfl
  have cut : Invocation.Tokenizes ⟨"a", defaultLimit, none⟩
      ⟨[(Location.working.step "a", .file ByteArray.empty)]⟩ :=
    ⟨"", _, rfl, name ▸ tokens⟩
  have accepted : Invocation.ofArguments ["a"] = .ok ⟨"a", defaultLimit, none⟩ := rfl
  have unlogged : "--log" ∉ ["a"] := by decide
  have line : Journal.complaint "b/c" DiskFailure.notFound.message =
      "Error opening log file b/c: No such file or directory (os error 2)" := by decide +kernel
  refine ⟨accepted, unlogged, cut, fun times => ?_⟩
  rw [← line]
  exact (logging_unobserved accepted unlogged "b/c" _).refused times cut rfl

end LinkedScopes
