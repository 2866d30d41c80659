import Overseer.Proofs.CommandLine.Pairing
import Overseer.Proofs.Outcomes
import Overseer.Proofs.Parent.Resolution
import Overseer.Proofs.Settings.Overrides

/-!
The parent's id in the environment of `child`. It is read as the value of a switch, not as the
monitor reads it: white space around it is not taken off, zero may have a minus sign, and what is no
id is refused instead of ignored.
-/
namespace Overseer.CommandLine

def Surroundings.withParent (place : Surroundings) (value : String) : Surroundings :=
  { place with environment := place.environment.insert parentVariable value }

/-- The words start `child`, and this is the parent that it watches as long as it goes on. -/
def Watches (place : Surroundings) (words : List String) (pid : Option UInt32) : Prop :=
  ∃ i o, read place.lookup words = .ok i ∧ i.action = .child o ∧ (place.monitorFor o).pid = pid ∧
    ∀ h, (Session.start place words).activity = .hosting h → h.monitor.pid = pid

inductive Complaint (value : String) : String → Prop where
  | unreadable (e : IntegerError)
      (unread : ∀ i, Text.Signed i value.toList → ¬Text.InBits 64 i) : Complaint value e.message
  | outside {i : Int} (signed : Text.Signed i value.toList) (beyond : i < 0 ∨ greatest32 < i) :
    Complaint value (toString i ++ " is not in 0..=" ++ toString greatest32)

variable {place : Surroundings} {words : List String} {value : String} {o : ChildOptions}

theorem Surroundings.lookup_withParent (place : Surroundings) (value name : String) :
    (place.withParent value).lookup name =
      if name = parentVariable then some value else place.lookup name :=
  Environment.get?_insert _ _ _ _

theorem inBits_of_le {n : Nat} (small : n ≤ greatest32) : Text.InBits 64 n := by
  have bits : greatest32 < Nat.pow 2 (64 - 1) := by decide
  constructor <;> omega

theorem readNumber_eq_ok_iff {n : Nat} :
    readNumber greatest32 value = .ok n ↔ Text.Signed n value.toList ∧ n ≤ greatest32 := by
  unfold readNumber
  constructor
  · intro reads
    split at reads
    next => cases reads
    next i parsed =>
      split at reads
      next inside =>
        obtain rfl : i.toNat = n := Except.ok.inj reads
        have same : (i.toNat : Int) = i := Int.toNat_of_nonneg inside.1
        exact ⟨same.symm ▸ (Text.parseSigned_eq_ok_iff.mp parsed).1, by omega⟩
      next => cases reads
  · rintro ⟨signed, small⟩
    rw [Text.parseSigned_eq_ok_iff.mpr ⟨signed, inBits_of_le small⟩]
    exact if_pos ⟨Int.natCast_nonneg n, by omega⟩

theorem readNumber_refused (none : ∀ n : Nat, Text.Signed n value.toList → ¬n ≤ greatest32) :
    ∃ message, readNumber greatest32 value = refuse (.invalid message) ∧
      Complaint value message := by
  unfold readNumber
  split
  next e parsed =>
    refine ⟨_, rfl, .unreadable e fun i signed bits => ?_⟩
    cases parsed.symm.trans (Text.parseSigned_eq_ok_iff.mpr ⟨signed, bits⟩)
  next i parsed =>
    have signed := (Text.parseSigned_eq_ok_iff.mp parsed).1
    split
    next inside =>
      have same : (i.toNat : Int) = i := Int.toNat_of_nonneg inside.1
      exact absurd (by omega) (none i.toNat (same.symm ▸ signed))
    next outside => exact ⟨_, rfl, .outside signed (by omega)⟩

variable {lookup lookup' : String → Option String}

/-- The second differs in the value of one variable, which the first does not know. -/
structure Adds (lookup lookup' : String → Option String) (value : String) : Prop where
  unset : lookup parentVariable = none
  set : lookup' parentVariable = some value
  same : ∀ name, name ≠ parentVariable → lookup' name = lookup name

theorem adds_withParent (unset : place.lookup parentVariable = none) (value : String) :
    Adds place.lookup (place.withParent value).lookup value where
  unset := unset
  set := (place.lookup_withParent value parentVariable).trans (if_pos rfl)
  same name other := (place.lookup_withParent value name).trans (if_neg other)

theorem fallBack_unset {name : String} (unset : lookup name = none) (given : Bool)
    (take : ChildDraft → String → Outcome ChildDraft) (d : ChildDraft) :
    fallBack lookup name given take d = .ok d := by
  unfold fallBack
  rw [unset]
  cases given <;> rfl

/-- The name of the channel has no wrong values. -/
theorem fallBack_channelName (lookup : String → Option String) (d : ChildDraft) :
    fallBack lookup Shutdown.channelVariable d.channelName.isSome takeChannelName d =
      .ok { d with channelName := d.channelName <|> lookup Shutdown.channelVariable } := by
  obtain ⟨pid, name, ignores, code, lifetime⟩ := d
  unfold fallBack
  cases name <;> cases lookup Shutdown.channelVariable <;> rfl

def ChildOptions.told (o : ChildOptions) (n : Nat) : ChildOptions :=
  { o with parentPid := some n.toUInt32 }

def ChildDraft.options (d : ChildDraft) (channelName : Option String) : ChildOptions :=
  { d with channelName := d.channelName <|> channelName }

theorem readChild_unset (unset : lookup parentVariable = none) (words : List String) :
    readChild lookup words = (readAll childGrammar {} words).map fun p =>
      (p.draft.logging, p.draft.own.options (lookup Shutdown.channelVariable)) := by
  unfold readChild
  cases readAll childGrammar {} words with
  | error e => rfl
  | ok p =>
    change (fallBack lookup parentVariable _ takeParentPid p.draft.own >>= fun own =>
      fallBack lookup Shutdown.channelVariable own.channelName.isSome takeChannelName own >>= _) = _
    rw [fallBack_unset unset]
    change fallBack lookup Shutdown.channelVariable _ takeChannelName p.draft.own >>= _ = _
    rw [fallBack_channelName]
    rfl

theorem readChild_set (set : lookup parentVariable = some value) {p : Progress (Draft ChildDraft)}
    (all : readAll childGrammar {} words = .ok p) (untold : p.draft.own.parentPid = none) :
    readChild lookup words = (readNumber greatest32 value).map fun n =>
      (p.draft.logging, (p.draft.own.options (lookup Shutdown.channelVariable)).told n) := by
  unfold readChild
  rw [all]
  change (fallBack lookup parentVariable _ takeParentPid p.draft.own >>= fun own =>
    fallBack lookup Shutdown.channelVariable own.channelName.isSome takeChannelName own >>= _) = _
  have falls :
      fallBack lookup parentVariable p.draft.own.parentPid.isSome takeParentPid p.draft.own =
        takeParentPid p.draft.own value := by
    unfold fallBack
    rw [untold, set]
    rfl
  rw [falls, takeParentPid]
  cases readNumber greatest32 value with
  | error e => rfl
  | ok n =>
    change fallBack lookup Shutdown.channelVariable _ takeChannelName _ >>= _ = _
    rw [fallBack_channelName]
    rfl

/-- Only the word `child` makes options of it. -/
theorem readAction_child {name : String} {l : Logging}
    (reads : readAction lookup name words = .ok (l, .child o)) :
    name = "child" ∧ readChild lookup words = .ok (l, o) := by
  unfold readAction at reads
  split at reads
  · obtain ⟨_, _, other⟩ := Except.bind_eq_ok_iff.mp reads
    cases other
  · split at reads
    next child =>
      obtain ⟨_, done, same⟩ := Except.bind_eq_ok_iff.mp reads
      cases same
      exact ⟨child, done⟩
    next =>
      split at reads
      · obtain ⟨_, _, other⟩ := Except.bind_eq_ok_iff.mp reads
        cases other
      · cases reads

theorem readAction_adds (adds : Adds lookup lookup' value) {name : String} {l : Logging}
    (reads : readAction lookup name words = .ok (l, .child o)) (untold : o.parentPid = none) :
    readAction lookup' name words =
      (readNumber greatest32 value).map fun n => (l, .child (o.told n)) := by
  obtain ⟨rfl, done⟩ := readAction_child reads
  rw [readChild_unset adds.unset] at done
  cases all : readAll childGrammar {} words with
  | error e =>
    rw [all] at done
    cases done
  | ok p =>
    rw [all] at done
    cases done
    have done' := readChild_set adds.set all untold
    rw [adds.same _ (by decide)] at done'
    change (readChild lookup' words >>= _) = _
    rw [done']
    cases readNumber greatest32 value <;> rfl

/-- The variable is read in the place of the switch. -/
theorem read_adds (adds : Adds lookup lookup' value) {i : Invocation}
    (reads : read lookup words = .ok i) (child : i.action = .child o)
    (untold : o.parentPid = none) :
    read lookup' words =
      (readNumber greatest32 value).map fun n => { i with action := .child (o.told n) } := by
  obtain ⟨⟨p, _ | ⟨name, rest⟩⟩, root, reads⟩ := Except.bind_eq_ok_iff.mp reads
  · obtain ⟨_, _, refused⟩ := Except.bind_eq_ok_iff.mp reads
    cases refused
  · obtain ⟨⟨l, action⟩, inner, reads⟩ := Except.bind_eq_ok_iff.mp reads
    obtain ⟨q, resolved, same⟩ := Except.bind_eq_ok_iff.mp reads
    cases same
    obtain rfl : action = .child o := child
    unfold read
    rw [root]
    change readAction lookup' name rest >>= _ = _
    rw [readAction_adds adds inner untold]
    cases readNumber greatest32 value with
    | error e => rfl
    | ok n =>
      change p.resolve >>= _ = _
      rw [resolved]
      rfl

theorem read_signed (adds : Adds lookup lookup' value) {i : Invocation}
    (reads : read lookup words = .ok i) (child : i.action = .child o) (untold : o.parentPid = none)
    {pid : UInt32} (signed : Text.Signed pid.toNat value.toList) :
    read lookup' words = .ok { i with action := .child (o.told pid.toNat) } := by
  have small : pid.toNat ≤ greatest32 := Nat.le_sub_one_of_lt pid.toNat_lt
  rw [read_adds adds reads child untold, readNumber_eq_ok_iff.mpr ⟨signed, small⟩]
  rfl

theorem read_refused (adds : Adds lookup lookup' value) {i : Invocation}
    (reads : read lookup words = .ok i) (child : i.action = .child o) (untold : o.parentPid = none)
    (none : ∀ pid : UInt32, ¬Text.Signed pid.toNat value.toList) :
    ∃ message, read lookup' words = refuse (.invalid message) ∧ Complaint value message := by
  have beyond (n : Nat) (signed : Text.Signed n value.toList) : ¬n ≤ greatest32 := by
    intro small
    have same : n.toUInt32.toNat = n := Nat.mod_eq_of_lt (Nat.lt_of_le_sub_one (by decide) small)
    exact none n.toUInt32 (same.symm ▸ signed)
  obtain ⟨message, refused, complaint⟩ := readNumber_refused beyond
  refine ⟨message, ?_, complaint⟩
  rw [read_adds adds reads child untold, refused]
  rfl

namespace Session

theorem startChild_monitor {s : Session} {h : Host}
    (hosting : (s.startChild place o).activity = .hosting h) : h.monitor = place.monitorFor o := by
  unfold startChild at hosting
  dsimp only at hosting
  split at hosting
  · cases hosting
  · split at hosting
    · obtain ⟨ignored, rfl, _⟩ := lookAround_hosting hosting
      rfl
    · cases hosting

theorem lookAround_printed (s : Session) (h : Host) :
    ∃ rest, (s.lookAround h).printed = s.printed ++ rest := by
  have noted (b : Bool) : (if b = true then s.note .exitIgnored else s).printed = s.printed := by
    cases b <;> rfl
  unfold lookAround
  dsimp only
  split
  · exact ⟨["exiting"], congrArg (· ++ ["exiting"]) (noted _)⟩
  · split
    · exact ⟨["exiting"], congrArg (· ++ ["exiting"]) (noted _)⟩
    · exact ⟨[], (noted _).trans (List.append_nil _).symm⟩

/-- Whether it starts is a matter of its channel alone. -/
theorem startChild_head {s : Session} (fresh : s.printed = []) (place : Surroundings)
    (o : ChildOptions) :
    (s.startChild place o).printed.head? =
      match (Shutdown.World.listen { files := place.system.files, temporary := place.temporary }
        (o.channelName.getD (Shutdown.Channel.ofProcess place.self).name)).1 with
      | .error _ => none
      | .ok _ => some ("started " ++ toString place.self.toNat) := by
  unfold startChild
  dsimp only
  split
  next refused => simp [refused, fail, finish, fresh]
  next station w bound =>
    have begun {t : Session} (none : t.printed = []) (line : String) :
        (t.print line).printed = [line] := congrArg (· ++ [line]) none
    rw [bound]
    split
    · have listening : (s.note .listening).printed = [] := fresh
      obtain ⟨rest, printed⟩ := lookAround_printed _ _
      rw [printed, begun listening]
      rfl
    · exact congrArg (fun lines => (lines ++ ["exiting"]).head?) (begun fresh _)

def fresh (place : Surroundings) : Session := { self := place.self, activity := .over 0 }

theorem start_child {i : Invocation} (reads : read place.lookup words = .ok i)
    (child : i.action = .child o) :
    start place words =
      match planOf place i with
      | .error .unnamed => (fresh place).fail "Failed to determine log file name" failureCode
      | .error .unopened =>
        (fresh place).fail "initializing rolling file appender failed" abortCode
      | .ok (plan, files) =>
        ((({ fresh place with plan, files }.note .initialised).note .starting).note
          .arguments).startChild (place.withFiles files) o := by
  unfold start
  rw [reads]
  dsimp only
  rw [child]
  rcases planOf place i with (_ | _) | ⟨plan, files⟩ <;> rfl

theorem start_monitor {i : Invocation} (reads : read place.lookup words = .ok i)
    (child : i.action = .child o) {h : Host} (hosting : (start place words).activity = .hosting h) :
    h.monitor = place.monitorFor o := by
  rw [start_child reads child] at hosting
  split at hosting
  · cases hosting
  · cases hosting
  · next plan files _ =>
    have watched : h.monitor = (place.withFiles files).monitorFor o := startChild_monitor hosting
    exact watched

theorem planOf_withParent (place : Surroundings) (value : String) (i : Invocation)
    (action : Action) : planOf (place.withParent value) { i with action } = planOf place i := by
  have other : logVariable ≠ parentVariable := by decide
  unfold planOf
  rw [Surroundings.lookup_withParent, if_neg other]
  rfl

/-- What the parent's id is does not decide whether `child` starts. -/
theorem start_head_withParent {i : Invocation} {n : Nat} (reads : read place.lookup words = .ok i)
    (child : i.action = .child o)
    (reads' : read (place.withParent value).lookup words =
      .ok { i with action := .child (o.told n) }) :
    (start (place.withParent value) words).printed.head? = (start place words).printed.head? := by
  have temporary : (place.withParent value).temporary = place.temporary := by
    unfold Surroundings.temporary
    rw [Surroundings.lookup_withParent, if_neg (by decide)]
  rw [start_child reads child, start_child reads' rfl, planOf_withParent]
  rcases planOf place i with (_ | _) | ⟨plan, files⟩
  · rfl
  · rfl
  · refine (startChild_head rfl _ _).trans (Eq.trans ?_ (startChild_head rfl _ _).symm)
    change (match (Shutdown.World.listen { files, temporary := (place.withParent value).temporary }
      _).1 with | .error _ => none | .ok _ => _) = _
    rw [temporary]
    rfl

end Session

theorem Watches.unique {pid other : Option UInt32} (one : Watches place words pid)
    (two : Watches place words other) : pid = other := by
  obtain ⟨i, o, reads, child, rfl, _⟩ := one
  obtain ⟨i', o', reads', child', rfl, _⟩ := two
  obtain rfl := Except.ok.inj (reads.symm.trans reads')
  obtain rfl := Action.child.inj (child.symm.trans child')
  rfl

theorem watches_told {i : Invocation} (reads : read place.lookup words = .ok i)
    (child : i.action = .child o) {pid : UInt32} (told : o.parentPid = some pid) :
    Watches place words (some pid) := by
  have watched : (place.monitorFor o).pid = some pid := by
    unfold Surroundings.monitorFor Parent.resolve
    rw [told]
    rfl
  exact ⟨i, o, reads, child, watched,
    fun h hosting => (congrArg _ (Session.start_monitor reads child hosting)).trans watched⟩

theorem not_watches_of_refused {r : Refusal} (refused : read place.lookup words = refuse r)
    (pid : Option UInt32) : ¬Watches place words pid := by
  rintro ⟨i, o, reads, _⟩
  cases refused.symm.trans reads

/-- A value that only the switch takes is not what the monitor takes. -/
theorem unsigned_of_names {pid : UInt32} (signed : Text.Signed pid.toNat value.toList)
    (names : Parent.Names value pid) : Text.Unsigned pid.toNat value.toList := by
  obtain ⟨n, ⟨unsigned, same⟩ | ⟨⟨digits, _, minus⟩, _⟩⟩ := signed
  · exact Int.ofNat_inj.mp same ▸ unsigned
  · exact absurd names (Parent.not_names_of_minus (by rw [minus]; rfl) pid)

/-- Words that start `child` and name no parent, with any value of the variable. A number of 32 bits
is watched, with or without a sign; with anything else, white space included, `child` does not start
and complains. So it goes by the monitor's own reading for a number without a minus sign and white
space, and else it does not. -/
theorem child_reads_variable {i : Invocation} (unset : place.lookup parentVariable = none)
    (reads : read place.lookup words = .ok i) (child : i.action = .child o)
    (untold : o.parentPid = none) (value : String) :
    let place' := place.withParent value
    (∀ pid : UInt32, Text.Signed pid.toNat value.toList →
      Watches place' words (some pid) ∧
        (Session.start place' words).printed.head? = (Session.start place words).printed.head?) ∧
    ((∀ pid : UInt32, ¬Text.Signed pid.toNat value.toList) →
      (∀ pid, ¬Watches place' words pid) ∧ ∃ message, Complaint value message ∧
        Session.start place' words =
          { self := place.self, activity := .over 2, report := some message }) ∧
    (Watches place' words (Parent.resolve none place'.lookup).pid ↔
      ∃ pid : UInt32, Text.Unsigned pid.toNat value.toList) := by
  intro place'
  have adds := adds_withParent unset value
  have resolved := Parent.resolved_resolve none place'.lookup
  have watches {pid : UInt32} (signed : Text.Signed pid.toNat value.toList) :
      Watches place' words (some pid) :=
    watches_told (read_signed adds reads child untold signed) rfl (congrArg some pid.ofNat_toNat)
  refine ⟨fun pid signed => ⟨watches signed, ?_⟩, fun none => ?_, fun watched => ?_, ?_⟩
  · exact Session.start_head_withParent reads child (read_signed adds reads child untold signed)
  · obtain ⟨message, refused, complaint⟩ := read_refused adds reads child untold none
    refine ⟨not_watches_of_refused refused, message, complaint, ?_⟩
    unfold Session.start
    rw [refused]
    rfl
  · by_cases some : ∃ pid : UInt32, Text.Signed pid.toNat value.toList
    · obtain ⟨pid, signed⟩ := some
      have found := watched.unique (watches signed)
      obtain ⟨value', present, names⟩ := (resolved.named rfl pid).mp found
      obtain rfl := Option.some.inj (adds.set.symm.trans present)
      exact ⟨pid, unsigned_of_names signed names⟩
    · obtain ⟨message, refused, _⟩ :=
        read_refused adds reads child untold (not_exists.mp some)
      exact absurd watched (not_watches_of_refused refused _)
  · rintro ⟨pid, unsigned⟩
    have named := (resolved.named rfl pid).mpr ⟨value, adds.set, .of_unsigned unsigned⟩
    exact named.symm ▸ watches ⟨_, .inl ⟨unsigned, rfl⟩⟩

def bareSurroundings : Surroundings where
  self := 7
  environment := .empty
  system := {}
  processes := ⟨[1, 7], []⟩
  script := {}

/-- The monitor takes the white space off one value and ignores the other, but `child` ends with an
exit code of two on both. It watches an id where the monitor would find none. -/
theorem child_refuses_padded :
    let padded := bareSurroundings.withParent " 1\n"
    let garbage := bareSurroundings.withParent "nope"
    let negative := bareSurroundings.withParent "-0"
    (Parent.resolve none padded.lookup).pid = some 1 ∧
      (Session.start padded ["child"]).code? = some 2 ∧ (∀ pid, ¬Watches padded ["child"] pid) ∧
      Parent.resolve none garbage.lookup =
        ⟨none, some parentVariable, [.unreadableParent "nope" .invalidDigit]⟩ ∧
      (Session.start garbage ["child"]).code? = some 2 ∧ (∀ pid, ¬Watches garbage ["child"] pid) ∧
      (Parent.resolve none negative.lookup).pid = none ∧ Watches negative ["child"] (some 0) := by
  intro padded garbage negative
  have refused : read padded.lookup ["child"] =
      refuse (.invalid "invalid digit found in string") := rfl
  have refused' : read garbage.lookup ["child"] =
      refuse (.invalid "invalid digit found in string") := rfl
  obtain ⟨i, reads, child⟩ : ∃ i, read negative.lookup ["child"] = .ok i ∧
      i.action = .child ⟨some 0, none, false, 0, .ofSeconds 100 (by decide)⟩ := ⟨_, rfl, rfl⟩
  exact ⟨by decide, rfl, not_watches_of_refused refused, by decide, rfl,
    not_watches_of_refused refused', by decide, watches_told reads child rfl⟩

theorem child_reads_variable_signed :
    bareSurroundings.lookup parentVariable = none ∧
      (∀ pid : UInt32, ¬Text.Signed pid.toNat " 1\n".toList) ∧
      (∀ pid, ¬Watches (bareSurroundings.withParent " 1\n") ["child"] pid) ∧
      Text.Signed (7 : UInt32).toNat "+007".toList ∧
      Watches (bareSurroundings.withParent "+007") ["child"] (some 7) := by
  obtain ⟨i, reads, child⟩ : ∃ i, read bareSurroundings.lookup ["child"] = .ok i ∧
      i.action = .child ⟨none, none, false, 0, .ofSeconds 100 (by decide)⟩ := ⟨_, rfl, rfl⟩
  have none (pid : UInt32) : ¬Text.Signed pid.toNat " 1\n".toList := by
    intro signed
    have refused : readNumber greatest32 " 1\n" =
        refuse (.invalid "invalid digit found in string") := rfl
    have small : pid.toNat ≤ greatest32 := Nat.le_sub_one_of_lt pid.toNat_lt
    cases refused.symm.trans (readNumber_eq_ok_iff.mpr ⟨signed, small⟩)
  have some : Text.Signed (7 : UInt32).toNat "+007".toList := (readNumber_eq_ok_iff.mp rfl).1
  obtain ⟨_, padded, _⟩ := child_reads_variable rfl reads child rfl " 1\n"
  obtain ⟨watched, _⟩ := child_reads_variable rfl reads child rfl "+007"
  exact ⟨rfl, none, (padded none).1, some, (watched 7 some).1⟩

end Overseer.CommandLine
