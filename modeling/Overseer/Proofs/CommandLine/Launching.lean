import Overseer.CommandLine.Session
import Overseer.Proofs.Arguments.RoundTrip
import Overseer.Proofs.CommandLine.Options
import Overseer.Proofs.Settings.Overrides

/-!
From the command line of `run` to the command that it launches. Options may come in any order; the
program and its arguments arrive unchanged, whatever they look like.
-/
namespace Overseer.CommandLine

namespace Given

def workdir? : Given → Option String
  | workdir path _ => some path
  | _ => none

def pair? : Given → Option Variable
  | env name value _ _ => some (name, value)
  | _ => none

def capturesStderr : Given → Bool
  | captureStderr => true
  | _ => false

def timeout? : Given → Option Duration
  | stopTimeout seconds fits => some (.ofSeconds seconds fits)
  | _ => none

theorem long_of_workdir? {g : Given} (told : g.workdir? ≠ none) : g.long = "workdir" := by
  cases g with
  | workdir => rfl
  | env | captureStderr | stopTimeout => exact absurd rfl told

theorem long_of_timeout? {g : Given} (told : g.timeout? ≠ none) : g.long = "stop-timeout" := by
  cases g with
  | stopTimeout => rfl
  | workdir | env | captureStderr => exact absurd rfl told

end Given

/-- The options, in any order, say what is asked for; only variables are told more than once. -/
structure Spells (gs : List Given) (o : RunOptions) : Prop where
  once : gs.Pairwise fun a b => a.long = b.long → a.long = "env"
  workdir : gs.findSome? Given.workdir? = o.workdir
  env : gs.filterMap Given.pair? = o.env
  captureStderr : gs.any Given.capturesStderr = o.captureStderr
  stopTimeout : (gs.findSome? Given.timeout?).getD (.ofSeconds 5 (by decide)) = o.stopTimeout

/-- What only one option changes is changed as that option tells. -/
theorem foldl_told {α : Type} (get : RunDraft → Option α) (told? : Given → Option α)
    {name : String} (step : ∀ d (g : Given), get (g.take d) = (told? g).or (get d))
    (named : ∀ {g : Given}, told? g ≠ none → g.long = name) (other : name ≠ "env")
    {gs : List Given} (once : gs.Pairwise fun a b => a.long = b.long → a.long = "env")
    (d : RunDraft) : get (gs.foldl Given.take d) = (gs.findSome? told?).or (get d) := by
  induction gs generalizing d with
  | nil => rfl
  | cons g gs ih =>
    have ⟨alone, later⟩ := List.pairwise_cons.1 once
    rw [List.foldl_cons, ih later, step, List.findSome?_cons]
    cases told : told? g with
    | none => rfl
    | some x =>
      -- No later option tells it again, so that the first is also the last.
      have long : g.long = name := named (by simp [told])
      have silent : gs.findSome? told? = none := by
        refine List.findSome?_eq_none_iff.2 fun h there => by_contra fun again => ?_
        exact other (long ▸ alone h there (long.trans (named again).symm))
      rw [silent]
      rfl

theorem foldl_env (gs : List Given) (d : RunDraft) :
    (gs.foldl Given.take d).env = d.env ++ gs.filterMap Given.pair? := by
  induction gs generalizing d with
  | nil => simp
  | cons g gs ih =>
    rw [List.foldl_cons, ih]
    cases g <;> simp [Given.take, Given.pair?, List.filterMap_cons]

theorem foldl_captureStderr (gs : List Given) (d : RunDraft) :
    (gs.foldl Given.take d).captureStderr =
      (d.captureStderr || gs.any Given.capturesStderr) := by
  induction gs generalizing d with
  | nil => simp
  | cons g gs ih =>
    rw [List.foldl_cons, ih]
    cases g <;> simp [Given.take, Given.capturesStderr]

def RunOptions.draft (o : RunOptions) : RunDraft :=
  { o with }

theorem Spells.draft {gs : List Given} {o : RunOptions} (spelled : Spells gs o) :
    gs.foldl Given.take {} = o.draft := by
  have workdir := foldl_told RunDraft.workdir Given.workdir? (fun _ g => by cases g <;> rfl)
    Given.long_of_workdir? (by decide) spelled.once {}
  have stopTimeout := foldl_told (fun d => some d.stopTimeout) Given.timeout?
    (fun _ g => by cases g <;> rfl) Given.long_of_timeout? (by decide) spelled.once {}
  have env := foldl_env gs {}
  have captureStderr := foldl_captureStderr gs {}
  rw [spelled.workdir, Option.or_none] at workdir
  rw [Option.or_some, spelled.stopTimeout, Option.some_inj] at stopTimeout
  rw [spelled.env] at env
  rw [spelled.captureStderr] at captureStderr
  calc gs.foldl Given.take {}
      = ⟨(gs.foldl Given.take {}).workdir, (gs.foldl Given.take {}).env,
          (gs.foldl Given.take {}).captureStderr, (gs.foldl Given.take {}).stopTimeout⟩ := rfl
    _ = o.draft := by
        rw [workdir, env, captureStderr, stopTimeout]
        rfl

def Progress.after (d : RunDraft) (seen program : List String) : Progress (Draft RunDraft) :=
  { Progress.between d seen with program }

theorem readWords_separated (d : RunDraft) (seen : List String) (p : String) (args : List String) :
    runGrammar.readWords (.between d seen) ("--" :: p :: args) =
      .ok (.after d seen (p :: args), none) := by
  have shape : form "--" = .separator := by decide
  rw [Grammar.readWords, shape]
  rfl

theorem readWords_undashed (d : RunDraft) (seen : List String) {p : String} (args : List String)
    (undashed : p.toList.head? ≠ some '-') :
    runGrammar.readWords (.between d seen) (p :: args) =
      .ok (.after d seen (p :: args), none) := by
  rw [Grammar.readWords, form_plain undashed]
  rfl

theorem read_run {words seen args : List String} {o : RunOptions} {p : String}
    (asked : o.program = p :: args) (gathered : runGrammar.readWords (.between {} []) words =
      .ok (.after o.draft seen (p :: args), none)) (lookup : String → Option String) :
    read lookup ("run" :: words) = .ok ⟨.run o, 0, none⟩ := by
  have all : readAll runGrammar {} words = .ok (.after o.draft seen (p :: args)) := by
    change (do (← runGrammar.readWords (.between {} []) words).1.resolve) = _
    rw [gathered]
    rfl
  have ran : readRun words = .ok ({}, o) := by
    unfold readRun
    rw [all]
    change (.ok ({}, { o with program := p :: args }) : Outcome (Logging × RunOptions)) = _
    rw [← asked]
  have action : readAction lookup "run" words = .ok ({}, .run o) := by
    unfold readAction
    rw [if_pos rfl, ran]
    rfl
  have root : rootGrammar.readWords { draft := { own := () } } ("run" :: words) =
      .ok ({ draft := { own := () } }, some ("run", words)) := by
    rw [Grammar.readWords]
    rfl
  unfold read
  rw [root]
  change (readAction lookup "run" words >>= _) = _
  rw [action]
  rfl

/-- What a command passes on of what was asked for. Variables have their last values; that for the
parent's id holds the id of whoever launches, unless it is given. -/
structure Carries (place : Surroundings) (o : RunOptions) (c : Command) : Prop where
  words : c.program :: c.arguments = o.program
  directory : c.directory = o.workdir.getD (FileTree.pathOf place.system.origin)
  capturesStderr : c.capturesStderr = o.captureStderr
  environment : ∀ name, c.environment.lookup name =
    (o.env.reverse.lookup name).or
      (if name = parentVariable then some (toString place.self.toNat) else none)

theorem Spells.workdir_ne {gs : List Given} {o : RunOptions} (spelled : Spells gs o) :
    o.workdir ≠ some "" := by
  intro unnamed
  obtain ⟨g, _, told⟩ := List.exists_of_findSome?_eq_some (spelled.workdir.trans unnamed)
  cases g with
  | workdir path named => exact named (Option.some.inj told)
  | env | captureStderr | stopTimeout => cases told

theorem settingsFor_carries (place : Surroundings) {o : RunOptions} {p : String}
    {args : List String} (asked : o.program = p :: args) (named : o.workdir ≠ some "") :
    Carries place o (Session.settingsFor place o p args).command := by
  have settings : Session.settingsFor place o p args =
      { workingDirectory := o.workdir.getD (FileTree.pathOf place.system.origin)
        program := p
        arguments := Arguments.join args
        environment := o.env.foldl (fun e v => e.insert v.1 v.2)
          (Environment.empty.insert parentVariable (toString place.self.toNat))
        captureStderr := o.captureStderr } :=
    Settings.foldl_withEnv _ _
  have directory : (o.workdir.getD (FileTree.pathOf place.system.origin)).isEmpty = false := by
    cases given : o.workdir with
    | none => simp [FileTree.pathOf]
    | some path =>
      rw [given] at named
      simpa using named
  rw [settings]
  constructor
  case words =>
    rw [asked]
    exact congrArg (p :: ·) (Arguments.group_join args)
  case directory => simp only [Settings.command, directory, Bool.false_eq_true, if_false]
  case capturesStderr => rfl
  case environment =>
    intro name
    refine (Environment.get?_foldl _ o.env name).trans ?_
    rw [Environment.get?_insert]
    rfl

/-- Whatever is asked for with the options in whatever order arrives, with a separator or, if the
program does not begin with a dash, without; and the command that is launched carries it. -/
theorem run_launches {gs : List Given} {o : RunOptions} (spelled : Spells gs o) {p : String}
    {args : List String} (asked : o.program = p :: args) (lookup : String → Option String)
    (place : Surroundings) :
    read lookup ("run" :: gs.map Given.word ++ "--" :: p :: args) = .ok ⟨.run o, 0, none⟩ ∧
    (p.toList.head? ≠ some '-' →
      read lookup ("run" :: gs.map Given.word ++ p :: args) = .ok ⟨.run o, 0, none⟩) ∧
    Carries place o (Session.settingsFor place o p args).command := by
  have options (rest : List String) := readWords_givens {} [] rest spelled.once fun g _ =>
    .inr List.not_mem_nil
  rw [spelled.draft] at options
  refine ⟨?_, fun undashed => ?_, settingsFor_carries place asked spelled.workdir_ne⟩
  · obtain ⟨seen, taken⟩ := options ("--" :: p :: args)
    exact read_run asked (taken.trans (readWords_separated o.draft seen p args)) lookup
  · obtain ⟨seen, taken⟩ := options (p :: args)
    exact read_run asked (taken.trans (readWords_undashed o.draft seen args undashed)) lookup

/-- Words that look like options, hold quotes and backslashes or nothing at all arrive, and a pair
may take the place of the parent's id. -/
theorem run_launches_noisy :
    let gs : List Given :=
      [.env "A" "1" (by decide) (by decide), .stopTimeout 90 (by decide),
        .env "PROCWARDEN_PARENT_PID" "7" (by decide) (by decide), .captureStderr,
        .env "A" "x=y" (by decide) (by decide), .workdir "a b" (by decide)]
    let args := ["--", "--env=A=2", "say \"hi\\\" there", "", "\\"]
    let o : RunOptions :=
      { program := "sh" :: args
        workdir := some "a b"
        env := [("A", "1"), ("PROCWARDEN_PARENT_PID", "7"), ("A", "x=y")]
        captureStderr := true
        stopTimeout := .ofSeconds 90 (by decide) }
    let words := ["--env=A=1", "--stop-timeout=90s", "--env=PROCWARDEN_PARENT_PID=7",
      "--capture-stderr", "--env=A=x=y", "--workdir=a b"]
    let place : Surroundings :=
      { self := 42, environment := .empty, system := {}, processes := ⟨[42], []⟩, script := {} }
    let c := (Session.settingsFor place o "sh" args).command
    gs.map Given.word = words ∧ Spells gs o ∧
    read (fun _ => none) ("run" :: words ++ "--" :: "sh" :: args) = .ok ⟨.run o, 0, none⟩ ∧
    read (fun _ => none) ("run" :: words ++ "sh" :: args) = .ok ⟨.run o, 0, none⟩ ∧
    c.program = "sh" ∧ c.arguments = args ∧ c.directory = "a b" ∧ c.capturesStderr = true ∧
    c.environment.lookup "PROCWARDEN_PARENT_PID" = some "7" ∧
    c.environment.lookup "A" = some "x=y" := by
  intro gs args o words place c
  have written : gs.map Given.word = words := by decide +kernel
  have spelled : Spells gs o :=
    ⟨by decide +kernel, by decide +kernel, by decide +kernel, by decide +kernel,
      by decide +kernel⟩
  have launched := run_launches spelled rfl (fun _ => none) place
  have arrives := launched.2.2
  rw [written] at launched
  have kept := List.cons.inj arrives.words
  exact ⟨written, spelled, launched.1, launched.2.1 (by decide), kept.1, kept.2,
    arrives.directory, arrives.capturesStderr, arrives.environment "PROCWARDEN_PARENT_PID",
    arrives.environment "A"⟩

end Overseer.CommandLine
