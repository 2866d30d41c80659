import Mathlib.Computability.RegularExpressions
import Overseer.Proofs.Lifecycle.Moves

/-!
The language of lifecycles. The triggers that move a run from the beginning are the start of a row
of lives, and every such row can be moved through. Where a run has come to can be read off its last
two moves.
-/
namespace Overseer.Lifecycle

/-- A launch that failed, an exit that nobody asked for, or a stop and the exit after it. -/
def life : RegularExpression Trigger :=
  .char .start * (.char .startError + .char .processExit + .char .stop * .char .processExit)

def lives : RegularExpression Trigger :=
  life.star

/-- The events of a run that moved it. -/
def heeded (s : State) (events : List Event) : List Event :=
  ((events.zip (execute s events)).filter fun step => step.2.moved).map Prod.fst

def destination : List Event → State
  | [] => .notStarted
  | ⟨.start, _⟩ :: _ => .running
  | ⟨.startError, _⟩ :: _ => .startFailed
  | ⟨.stop, _⟩ :: _ => .stopping
  | ⟨.processExit, context⟩ :: ⟨.stop, _⟩ :: _ => verdict context
  | ⟨.processExit, _⟩ :: _ => .exitedUnexpectedly

/-- What a life that is not over has been through. -/
def begun : State → List Trigger
  | .running => [.start]
  | .stopping => [.start, .stop]
  | _ => []

variable {s target : State} {t : Trigger} {context : Context} {e : Event}
  {word : List Trigger} {told events : List Event}

theorem mem_char_iff : word ∈ (RegularExpression.char t).matches' ↔ word = [t] :=
  Iff.rfl

theorem mem_life_iff :
    word ∈ life.matches' ↔
      word = [.start, .startError] ∨ word = [.start, .processExit] ∨
        word = [.start, .stop, .processExit] := by
  simp only [life, RegularExpression.matches'_mul, RegularExpression.matches'_add,
    Language.mem_mul, Language.mem_add, mem_char_iff]
  simp [or_and_right, exists_or, or_assoc, eq_comm]

theorem append_mem_lives {more : List Trigger} (earlier : word ∈ lives.matches')
    (last : more ∈ life.matches') : word ++ more ∈ lives.matches' := by
  have absorbs : lives.matches' * life.matches' ≤ lives.matches' := kstar_mul_le_kstar
  exact absorbs (Language.append_mem_mul earlier last)

theorem begun_of_free (free : s.isLive = false) : begun s = [] := by
  cases s <;> first | rfl | contradiction

/-- What has begun can be brought to an end. -/
theorem exists_mem_lives (earlier : word ∈ lives.matches') (s : State) :
    ∃ whole ∈ lives.matches', word ++ begun s <+: whole := by
  have ended (rest : List Trigger) (last : begun s ++ rest ∈ life.matches') :
      ∃ whole ∈ lives.matches', word ++ begun s <+: whole :=
    ⟨word ++ (begun s ++ rest), append_mem_lives earlier last, rest, List.append_assoc ..⟩
  cases s with
  | running => exact ended [.startError] (mem_life_iff.mpr (.inl rfl))
  | stopping => exact ended [.processExit] (mem_life_iff.mpr (.inr (.inr rfl)))
  | _ => exact ⟨word, earlier, by simp [begun]⟩

/-- A move goes on with a life or ends it. -/
theorem begun_next (moves : next s t context = some target) :
    begun target = begun s ++ [t] ∨ begun target = [] ∧ begun s ++ [t] ∈ life.matches' := by
  cases next_eq_some_iff.mp moves with
  | start free =>
    rw [begun_of_free free]
    exact .inl rfl
  | startError => exact .inr ⟨rfl, mem_life_iff.mpr (.inl rfl)⟩
  | stop => exact .inl rfl
  | unasked => exact .inr ⟨rfl, mem_life_iff.mpr (.inr (.inl rfl))⟩
  | asked =>
    have vacant : (verdict context).isLive = false :=
      State.isLive_of_isExited (isExited_verdict context)
    exact .inr ⟨begun_of_free vacant, mem_life_iff.mpr (.inr (.inr rfl))⟩

/-- An exit is an end that was asked for if a stop came just before it. -/
theorem destination_processExit (context : Context) (told : List Event) :
    destination (⟨.processExit, context⟩ :: told) =
      if destination told = .stopping then verdict context else .exitedUnexpectedly := by
  induction told generalizing context with
  | nil => rfl
  | cons e told ih =>
    obtain ⟨t, before⟩ := e
    cases t with
    | start | startError | stop => rfl
    | processExit =>
      have ended : (destination (⟨.processExit, before⟩ :: told)).isExited = true := by
        rw [ih]
        split
        · exact isExited_verdict before
        · rfl
      rw [if_neg (by intro stopping; simp [stopping, State.isExited] at ended)]
      rfl

theorem destination_next (leads : destination told = s)
    (moves : next s e.trigger e.context = some target) : destination (e :: told) = target := by
  obtain ⟨t, context⟩ := e
  cases next_eq_some_iff.mp moves with
  | start | startError | stop => rfl
  | unasked => rw [destination_processExit, leads, if_neg (by decide)]
  | asked => rw [destination_processExit, if_pos leads]

@[simp] theorem heeded_nil (s : State) : heeded s [] = [] := rfl

theorem heeded_cons (s : State) (e : Event) (events : List Event) :
    heeded s (e :: events) =
      if (next s e.trigger e.context).isSome then e :: heeded (advance s e) events
      else heeded (advance s e) events := by
  rw [heeded, execute, List.zip_cons_cons, List.filter_cons]
  split <;> rfl

theorem heeded_append (s : State) (earlier later : List Event) :
    heeded s (earlier ++ later) =
      heeded s earlier ++ heeded (earlier.foldl advance s) later := by
  induction earlier generalizing s with
  | nil => rfl
  | cons e earlier ih =>
    rw [List.cons_append, heeded_cons, heeded_cons, ih, List.foldl_cons]
    split <;> rfl

theorem heeded_sublist (s : State) (events : List Event) : (heeded s events).Sublist events := by
  induction events generalizing s with
  | nil => exact .slnil
  | cons e events ih =>
    rw [heeded_cons]
    split
    · exact (ih _).cons_cons e
    · exact (ih _).cons e

/-- A run that heeds all of its events heeds all of them up to any point. -/
theorem heeded_of_prefix {earlier : List Event} (start : earlier <+: events)
    (whole : heeded s events = events) : heeded s earlier = earlier := by
  obtain ⟨later, rfl⟩ := start
  rw [heeded_append] at whole
  have lengths := congrArg List.length whole
  have first := (heeded_sublist s earlier).length_le
  have rest := (heeded_sublist (earlier.foldl advance s) later).length_le
  rw [List.length_append, List.length_append] at lengths
  exact (heeded_sublist s earlier).eq_of_length (by omega)

/-- What a run has been moved through, against the language and against the state it has led to. -/
structure Story (told : List Event) (s : State) : Prop where
  reads : ∃ word ∈ lives.matches', told.map Event.trigger = word ++ begun s
  leads : destination told.reverse = s

theorem story_nil : Story [] .notStarted where
  reads := ⟨[], Language.nil_mem_kstar _, rfl⟩
  leads := rfl

theorem Story.next (story : Story told s) (moves : next s e.trigger e.context = some target) :
    Story (told ++ [e]) target where
  reads := by
    obtain ⟨word, earlier, told⟩ := story.reads
    rw [List.map_append, told, List.map_singleton, List.append_assoc]
    rcases begun_next moves with goesOn | ⟨vacant, last⟩
    · exact ⟨word, earlier, by rw [goesOn]⟩
    · exact ⟨_, append_mem_lives earlier last, by rw [vacant, List.append_nil]⟩
  leads := by
    rw [List.reverse_concat']
    exact destination_next story.leads moves

/-- A run from where a story has led goes on with it by the events that it heeds. -/
theorem Story.execute (story : Story told s) (events : List Event) :
    Story (told ++ heeded s events) (events.foldl advance s) := by
  induction events generalizing told s with
  | nil => simpa using story
  | cons e events ih =>
    rw [heeded_cons, List.foldl_cons]
    cases moves : Lifecycle.next s e.trigger e.context with
    | none =>
      rw [advance_of_refused moves]
      exact ih story
    | some target =>
      rw [advance_of_next moves, Option.isSome_some, if_pos rfl, List.append_cons]
      exact ih (story.next moves)

def Coded (events : List Event) : Prop :=
  ∀ e ∈ events, e.trigger = .processExit → e.context.exitCode.isSome

/-- A life begins where no process is there, and none is there when it is over. -/
theorem heeded_life (free : s.isLive = false) (coded : Coded events)
    (triggers : events.map Event.trigger ∈ life.matches') :
    heeded s events = events ∧ (events.foldl advance s).isLive = false := by
  rcases mem_life_iff.mp triggers with word | word | word <;>
    simp only [List.map_eq_cons_iff, List.map_eq_nil_iff] at word
  · obtain ⟨e, _, rfl, starts, f, _, rfl, fails, rfl⟩ := word
    simp [heeded_cons, advance, starts, fails, next_start, next_startError, free]
  · obtain ⟨e, _, rfl, starts, f, _, rfl, exits, rfl⟩ := word
    have code := coded f (by simp) exits
    have vacant : State.exitedUnexpectedly.isLive = false := rfl
    simp [heeded_cons, advance, starts, exits, next_start, next_processExit, free, code, vacant]
  · obtain ⟨e, _, rfl, starts, f, _, rfl, stops, g, _, rfl, exits, rfl⟩ := word
    have vacant := State.isLive_of_isExited (isExited_verdict g.context)
    simp [heeded_cons, advance, starts, stops, exits, next_start, next_stop, next_processExit, free,
      vacant]

theorem heeded_lives (free : s.isLive = false) (coded : Coded events)
    (triggers : events.map Event.trigger ∈ lives.matches') : heeded s events = events := by
  obtain ⟨words, whole, each⟩ := Language.mem_kstar.mp triggers
  induction words generalizing s events with
  | nil =>
    obtain rfl : events = [] := by simpa using whole
    rfl
  | cons word words ih =>
    obtain ⟨first, rest, rfl, here, later⟩ := List.map_eq_append_iff.mp whole
    have coded := List.forall_mem_append.mp coded
    have each := List.forall_mem_cons.mp each
    have ⟨moved, vacant⟩ := heeded_life free coded.1 (here ▸ each.1)
    have onward := ih vacant coded.2 (Language.mem_kstar.mpr ⟨words, later, each.2⟩) later each.2
    rw [heeded_append, moved, onward]

/-- Runs from the beginning tell of lives one after another, the last of them perhaps not over, and
any such row of triggers is told by some run. The last two moves are all that the state goes by, and
no exit is refused in the midst of a stop. -/
theorem execute_tells_lives :
    (∀ events : List Event,
      (∃ word ∈ lives.matches', (heeded .notStarted events).map Event.trigger <+: word) ∧
        events.foldl advance .notStarted = destination (heeded .notStarted events).reverse) ∧
      (∀ word ∈ lives.matches', ∀ triggers : List Trigger, triggers <+: word →
        ∃ events : List Event,
          events.map Event.trigger = triggers ∧ heeded .notStarted events = events) ∧
      ∀ context : Context, (next .stopping .processExit context).isSome := by
  refine ⟨fun events => ?_, fun word told triggers start => ?_, fun context => ?_⟩
  · have story := story_nil.execute events
    rw [List.nil_append] at story
    obtain ⟨word, earlier, reads⟩ := story.reads
    rw [reads]
    exact ⟨exists_mem_lives earlier _, story.leads.symm⟩
  · -- Only an exit without a code could be refused, so that any code serves.
    let clean (t : Trigger) : Event := ⟨t, ⟨false, some 0⟩⟩
    have same (triggers : List Trigger) : (triggers.map clean).map Event.trigger = triggers := by
      simp [clean, Function.comp_def]
    have coded : Coded (word.map clean) := by simp [Coded, clean]
    have whole := heeded_lives (s := .notStarted) rfl coded ((same word).symm ▸ told)
    exact ⟨triggers.map clean, same triggers, heeded_of_prefix (start.map clean) whole⟩
  · simp [next_processExit]

/-- A stop too early, an exit without a code and a start amid a stop are passed over on the way to
the exit of a process that was killed. Another start may follow, and it may fail. -/
theorem execute_tells_lives_restarted :
    let early : List Event := [⟨.stop, {}⟩, ⟨.start, {}⟩, ⟨.processExit, {}⟩]
    let late : List Event := [⟨.stop, {}⟩, ⟨.start, {}⟩, ⟨.processExit, ⟨true, none⟩⟩]
    let told : List Trigger := [.start, .stop, .processExit]
    (heeded .notStarted (early ++ late)).map Event.trigger = told ∧
      (early ++ late).foldl advance .notStarted = .exitedKilled ∧
      told ++ [.start, .startError] ∈ lives.matches' ∧
      ∃ events : List Event,
        events.map Event.trigger = told ++ [.start] ∧ heeded .notStarted events = events := by
  intro early late told
  have moved : heeded .notStarted (early ++ late) =
      [⟨.start, {}⟩, ⟨.stop, {}⟩, ⟨.processExit, ⟨true, none⟩⟩] := by decide
  have led := (execute_tells_lives.1 (early ++ late)).2
  have twice : told ++ [.start, .startError] ∈ lives.matches' := by decide
  rw [moved] at led ⊢
  exact ⟨rfl, led, twice, execute_tells_lives.2.1 _ twice _ (by decide)⟩

end Overseer.Lifecycle
