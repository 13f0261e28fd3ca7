import DocPipeline.Proofs.Coordinator.Parse

namespace DocPipeline

-- What a path leads to, wherever that is.
def Tree.content (tree : Tree) (path : Path) : Except IoError Entry :=
  (tree.find path).map (·.2)

-- The parser sees nothing of a tree but the file that it is to parse.
def Parser.SeesFile (parser : Parser) : Prop :=
  ∀ (tree later : Tree) (dir file : Path) (hint : PackageHint),
    later.content file = tree.content file →
    parser.file later dir file hint = parser.file tree dir file hint

-- The answer to parsing a file again agrees with the records and the skipped code of a pass.
inductive Agrees (label : String) :
    Except Failure (List Record) → List Record → List InvalidCode → Prop
  | returned (records : List Record) : Agrees label (.ok records) records []
  | failed (cause : Failure) :
    Agrees label (.error (.parse label cause)) [] [⟨label, cause.message⟩]

namespace Agrees

variable {label : String} {answer : Except Failure (List Record)} {records : List Record}
  {skipped : List InvalidCode}

-- Nothing is returned exactly where the pass found nothing and had nothing to skip.
theorem eq_nil_iff (h : Agrees label answer records skipped) :
    answer = .ok [] ↔ records = [] ∧ skipped = [] := by
  cases h with
  | returned records => simp
  | failed cause => simp

-- A file fails again with the message that the pass remembered, and only then.
theorem fails_iff (h : Agrees label answer records skipped) (message : String) :
    (∃ cause, answer = .error (.parse label cause) ∧ cause.message = message) ↔
      skipped = [⟨label, message⟩] := by
  cases h with
  | returned records => simp
  | failed cause => simp

end Agrees

namespace ParseResult

-- What parsing again makes of the answer of the parser.
def answer (label : String) : ParseResult → Except Failure (List Record)
  | .ok none => .ok []
  | .ok (some parsed) => .ok parsed.records
  | .error cause => .error (.parse label cause)

theorem agrees_answer (label : String) (result : ParseResult) :
    Agrees label (result.answer label) result.records (result.skipped label) := by
  rcases result with cause | _ | parsed
  · exact .failed cause
  · exact .returned []
  · exact .returned parsed.records

end ParseResult

-- The counters after some more failures.
def Metrics.withFailures (m : Metrics) (n : Nat) : Metrics :=
  { m with parseFailures := m.parseFailures + n }

namespace Session

variable {ε : Type} {session : Session ε} {path : Path} {file : Candidate} {result : ParseResult}

theorem exec_reparse {tree : Tree} (hfile : Candidate.ofFile session.plan.dir path = file)
    (hresult : (session.sources tree).fileResult file = result) (a : Assembly) :
    exec (session.reparser.parse tree path) a = (result.answer file.relative,
      { a with
        log := a.log.add ⟨.info, "parse: " ++ file.relative⟩
        metrics := a.metrics.withFailures (result.skipped file.relative).length }) := by
  subst hfile hresult
  have hparse : exec (Assembly.parseSource (session.sources tree) .propagate
      (.ofFile session.plan.dir path)) a = exec (Assembly.settle _ .propagate
        ((session.sources tree).fileResult (.ofFile session.plan.dir path)))
        { a with log := a.log.add ⟨.info, _⟩ } := rfl
  change exec (Assembly.parseSource (session.sources tree) .propagate
    (.ofFile session.plan.dir path) >>= _) a = _
  rw [exec_bind, hparse]
  rcases (session.sources tree).fileResult (.ofFile session.plan.dir path) with
    cause | _ | parsed <;> rfl

-- Parsing again writes to the log and counts a failure. Nothing else in the world changes.
theorem reparse_eq {world : World ε} (hfile : Candidate.ofFile session.plan.dir path = file)
    (hresult : (session.sources world.tree).fileResult file = result) :
    world.reparse session.reparser path = (result.answer file.relative,
      { world with
        log := world.log.add ⟨.info, "parse: " ++ file.relative⟩
        metrics := world.metrics.withFailures (result.skipped file.relative).length }) := by
  have hparse : (session.reparser.parse world.tree path).run.run
      ⟨world.store, world.metrics, world.log, []⟩ = _ :=
    exec_reparse hfile hresult ⟨world.store, world.metrics, world.log, []⟩
  rw [World.reparse, World.assemble, hparse]

end Session

namespace Assembly

variable {α : Type} {add : α → Assembling Nat} {start middle : Assembly} {n : Nat}

-- A pass over a list goes on after a part of it from where that part led.
theorem exec_addEach_append {items more : List α}
    (h : exec (addEach add items) start = (.ok n, middle)) :
    exec (addEach add (items ++ more)) start =
      exec (do return n + (← addEach add more)) middle := by
  induction items generalizing start n with
  | nil =>
    cases h
    have hzero : (do return 0 + (← addEach add more)) = addEach add more := by simp
    rw [List.nil_append, hzero]
  | cons item items ih =>
    obtain ⟨first, next, hfirst, h⟩ := exec_bind_eq_ok h
    obtain ⟨rest, last, hrest, h⟩ := exec_bind_eq_ok h
    cases h
    rw [List.cons_append, addEach, exec_bind_of_ok hfirst, exec_bind, ih hrest, exec_bind,
      exec_bind]
    rcases exec (addEach add more) _ with ⟨_ | total, _⟩
    · rfl
    · simp [Nat.add_assoc]

-- The turn of one file in a pass over a list: the assembly that it finds, the one that it leaves,
-- and the pass going on from there.
structure Turn (sources : Sources) (before : List Candidate) (file : Candidate)
    (after : List Candidate) (start found left : Assembly) : Prop where
  reached : ∃ n, exec (addSources sources .skip before) start = (.ok n, found)
  taken : ∃ n, exec (addSource sources .skip file) found = (.ok n, left)
  goesOn : ∃ n, exec (addSources sources .skip (before ++ file :: after)) start =
    exec (do return n + (← addSources sources .skip after)) left

-- Every file of a list has its turn, in which it adds what the parser gave for it.
theorem exists_turn (sources : Sources) (before : List Candidate) (file : Candidate)
    (after : List Candidate) (start : Assembly) :
    ∃ found left, Turn sources before file after start found left ∧
      left.store.db.records = found.store.db.records ++ (sources.fileResult file).records ∧
      left.skipped = found.skipped ++ (sources.fileResult file).skipped file.relative := by
  obtain ⟨m, found, hreached, _⟩ := adds_addSources sources before start
  obtain ⟨k, left, htaken, hdb, hskipped, _⟩ := adds_addSource sources file found
  have hboth : exec (addSources sources .skip (before ++ [file])) start =
      (.ok (m + (k + 0)), left) := by
    rw [addSources, exec_addEach_append hreached, addEach, exec_bind, exec_bind_of_ok htaken]
    rfl
  have hon : exec (addSources sources .skip (before ++ file :: after)) start =
      exec (do return (m + (k + 0)) + (← addSources sources .skip after)) left := by
    rw [List.append_cons]
    exact exec_addEach_append hboth
  refine ⟨found, left, ⟨⟨m, hreached⟩, ⟨k, htaken⟩, ⟨_, hon⟩⟩, ?_, hskipped⟩
  rw [hdb]
  rfl

end Assembly

namespace Conduct

variable {ε : Type} {session : Session ε} {files : List Path} {before after : List Candidate}
  {file : Candidate} {tree : Tree} {path : Path}

-- Parsing again, in any spelling of its path, a file that a pass parsed, agrees with what the pass
-- made of it, as long as the file did not change. It returns the records that the pass appended for
-- the file, returns nothing exactly where there were none and nothing was skipped, and fails
-- exactly where the pass skipped the file, with the same label and message. Nothing of the world
-- changes besides the log and the count of failures, and what the run lends to be edited stays.
theorem reparse_agrees_with_pass
    (hfiles : Candidate.select session.plan.dir files session.plan.filter = before ++ file :: after)
    (hpath : Path.absolutize session.plan.dir path = file.absolute)
    (hparser : session.runtime.parser.SeesFile) (start : Assembly) (world : World ε)
    (hsame : world.tree.content file.absolute = tree.content file.absolute) :
    ∃ found left records skipped,
      Assembly.Turn (session.sources tree) before file after start found left ∧
      left.store.db.records = found.store.db.records ++ records ∧
      left.skipped = found.skipped ++ skipped ∧
      ∃ answer log,
        (∀ (π α : Type) (payload : π) (next : Except Failure (List Record) → Conduct ε π α),
          (reparse session.reparser path next).run payload world =
            (next answer).run payload
              { world with log, metrics := world.metrics.withFailures skipped.length }) ∧
        Agrees file.relative answer records skipped ∧
        (answer = .ok [] ↔ records = [] ∧ skipped = []) ∧
        ∀ message, (∃ cause, answer = .error (.parse file.relative cause) ∧
          cause.message = message) ↔ skipped = [⟨file.relative, message⟩] := by
  obtain ⟨found, left, hturn, hrecords, hskipped⟩ :=
    Assembly.exists_turn (session.sources tree) before file after start
  -- The path is made into the candidate that the list holds.
  have hfile : Candidate.ofFile session.plan.dir path = file := by
    have hmem : file ∈ Candidate.select session.plan.dir files session.plan.filter := by
      rw [hfiles]
      simp
    obtain ⟨listed, _, rfl⟩ := List.mem_map.mp (List.mem_filter.mp hmem).1
    simp only [Candidate.ofFile] at hpath ⊢
    rw [hpath]
  have hresult : (session.sources world.tree).fileResult file =
      (session.sources tree).fileResult file :=
    hparser _ _ _ _ _ hsame
  have hagrees := ParseResult.agrees_answer file.relative ((session.sources tree).fileResult file)
  refine ⟨found, left, _, _, hturn, hrecords, hskipped, _,
    world.log.add ⟨.info, "parse: " ++ file.relative⟩, fun π α payload next => ?_,
    hagrees, hagrees.eq_nil_iff, hagrees.fails_iff⟩
  rw [run, Session.reparse_eq hfile hresult]

-- A parser that gives one record for a file with text, and fails for one that is empty.
def readingParser : Parser where
  file tree _ file _ :=
    match tree.content file with
    | .ok (.file bytes) =>
      if bytes.size = 0 then .error (.text "no text") else .ok (some ⟨[{ kind := .file }], none⟩)
    | _ => .ok none
  code _ _ := .ok none
  test _ _ _ _ := .ok none

theorem readingParser_seesFile : readingParser.SeesFile := by
  intro tree later dir file hint h
  simp only [readingParser, h]

def readingSession : Session Unit where
  plan := { (default : Plan) with dir := ⟨"/p"⟩, filter := ⟨[⟨"", .empty⟩], []⟩ }
  state := {}
  package := {}
  runtime := ⟨"reading", readingParser, indexResolver⟩
  publisher := fun _ _ => .done ()

-- A file with text and an empty one, beside a file that changes.
def readingTree (other : String) : Tree :=
  ⟨[(["p"], .directory), (["p", "a.js"], .file "a".toUTF8), (["p", "b.js"], .file "".toUTF8),
    (["p", "c.js"], .file other.toUTF8)]⟩

def readingWorld : World Unit where
  tree := readingTree "new"
  log := ⟨none, []⟩
  host := ()

-- The empty file fails again with what the pass said of it, though another file changed since.
theorem reparse_empty_file : ∃ found left,
    Assembly.Turn (readingSession.sources (readingTree "old")) [⟨⟨"/p/a.js"⟩, "a.js"⟩]
      ⟨⟨"/p/b.js"⟩, "b.js"⟩ [] ⟨{}, {}, ⟨none, []⟩, []⟩ found left ∧
    left.skipped = found.skipped ++ [⟨"b.js", "no text"⟩] ∧
    ((reparse readingSession.reparser ⟨"./lib/..//b.js"⟩ ofExcept).run () readingWorld).result =
      .error (.parse "b.js" (.text "no text")) := by
  obtain ⟨found, left, records, skipped, hturn, _, hskipped, answer, log, hrun, _, _, hfails⟩ :=
    @reparse_agrees_with_pass _ readingSession [⟨"a.js"⟩, ⟨"/p/b.js"⟩]
      [⟨⟨"/p/a.js"⟩, "a.js"⟩] [] ⟨⟨"/p/b.js"⟩, "b.js"⟩ (readingTree "old") ⟨"./lib/..//b.js"⟩
      (by decide) (by decide) readingParser_seesFile ⟨{}, {}, ⟨none, []⟩, []⟩ readingWorld
      (by decide)
  have hresult : ((reparse readingSession.reparser ⟨"./lib/..//b.js"⟩ ofExcept).run ()
      readingWorld).result = .error (.parse "b.js" (.text "no text")) := by
    rfl
  refine ⟨found, left, hturn, ?_, hresult⟩
  rw [hrun] at hresult
  have hanswer : answer = .error (.parse "b.js" (.text "no text")) := by
    cases answer <;> exact hresult
  rw [hskipped, (hfails "no text").mp ⟨_, hanswer, rfl⟩]

end Conduct

end DocPipeline
