import Mathlib
import Ecdsa.Hasher

/-!
# Runs of named hashers

However the steps on several hashers are mixed, a digest that is asked for is the digest of all bytes
that the hasher was given since it was created, hashed at once (`run_hashes_given`). What was given is
read off the steps alone (`Gave`).

A step keeps what a hasher holds, and adds the bytes that it gives (`Keeps.step`); by induction so does
a run (`Keeps.after`). That hashers do not touch each other is said of answers: those on one hasher are
the same if all steps on others are left out (`answersOn_eq`). It rests on a step reading and writing
nothing but the hasher that it is about (`step_congr`, `find_step_of_ne`).
-/

namespace Ecdsa

namespace HasherStep

/-- The hasher that a step is about. -/
def name : HasherStep → String
  | .create name _ => name
  | .update name _ => name
  | .finish name => name

/-- The bytes that a step gives to the hasher of a name: none if it is about another, or gives no
bytes. -/
def given (target : String) : HasherStep → Bytes
  | .update name (.bytes data) => if name = target then data else []
  | _ => []

theorem given_of_ne {target : String} {s : HasherStep} (hne : s.name ≠ target) :
    s.given target = [] := by
  unfold given
  split
  next name data => exact if_neg hne
  next => rfl

@[simp]
theorem given_create (target name algorithm : String) : (create name algorithm).given target = [] :=
  rfl

@[simp]
theorem given_finish (target name : String) : (finish name).given target = [] :=
  rfl

@[simp]
theorem given_update_bytes (name : String) (data : Bytes) :
    (update name (.bytes data)).given name = data :=
  if_pos rfl

theorem given_update_of_not_bytes (target name : String) {source : ByteSource}
    (hsource : ∀ data, source ≠ .bytes data) : (update name source).given target = [] := by
  cases source with
  | bytes data => exact absurd rfl (hsource data)
  | _ => rfl

end HasherStep

namespace HasherStore

variable {store : HasherStore}

/-! ## One step -/

theorem find_keep_self (store : HasherStore) (name : String) (h : Hasher) :
    (store.keep name h).find name = .ok h := by
  simp [find, keep]

theorem find_keep_of_ne (store : HasherStore) {name other : String} (h : Hasher)
    (hne : name ≠ other) : (store.keep name h).find other = store.find other := by
  have hbeq : (other == name) = false := beq_false_of_ne hne.symm
  simp [find, keep, List.lookup_cons, hbeq]

theorem step_create (store : HasherStore) (name : String) :
    store.step (.create name "sha256") = (store.keep name .new, .ok none) := by
  simp [step, perform, Hasher.ofName, bind, Except.bind, pure, Except.pure]

theorem step_create_of_ne (store : HasherStore) (name : String) {algorithm : String}
    (hne : algorithm ≠ "sha256") :
    store.step (.create name algorithm) = (store, .error (.unknownAlgorithm algorithm)) := by
  simp [step, perform, Hasher.ofName, hne, bind, Except.bind]

theorem step_update {name : String} {h : Hasher} (hfind : store.find name = .ok h) (data : Bytes) :
    store.step (.update name (.bytes data)) = (store.keep name (h.update data), .ok none) := by
  simp [step, perform, hfind, Hasher.updateSource, bind, Except.bind, pure, Except.pure]

theorem step_update_of_not_bytes {name : String} {h : Hasher} (hfind : store.find name = .ok h)
    {source : ByteSource} (hsource : ∀ data, source ≠ .bytes data) :
    store.step (.update name source) = (store, .error .notBytes) := by
  cases source with
  | bytes data => exact absurd rfl (hsource data)
  | _ => simp [step, perform, hfind, Hasher.updateSource, bind, Except.bind]

theorem step_finish {name : String} {h : Hasher} (hfind : store.find name = .ok h) :
    store.step (.finish name) = (store, .ok (some h.finish)) := by
  simp [step, perform, hfind, bind, Except.bind, pure, Except.pure]

theorem step_update_of_error {name : String} {fault : Fault}
    (hfind : store.find name = .error fault) (source : ByteSource) :
    store.step (.update name source) = (store, .error fault) := by
  simp [step, perform, hfind, bind, Except.bind]

theorem step_finish_of_error {name : String} {fault : Fault}
    (hfind : store.find name = .error fault) :
    store.step (.finish name) = (store, .error fault) := by
  simp [step, perform, hfind, bind, Except.bind]

/-- What a step does, by the step and the hasher that it finds, whatever else is kept: it keeps a
hasher under the name that it is about, or it asks for a digest or fails, and then changes nothing. -/
inductive StepCases (found : Except Fault Hasher) (s : HasherStep) : Prop
  | keeps (h : Hasher) (hstep : ∀ store : HasherStore, store.find s.name = found →
      store.step s = (store.keep s.name h, .ok none))
  | asks (d : Digest) (hstep : ∀ store : HasherStore, store.find s.name = found →
      store.step s = (store, .ok (some d)))
  | fails (fault : Fault) (hstep : ∀ store : HasherStore, store.find s.name = found →
      store.step s = (store, .error fault))

theorem step_cases (found : Except Fault Hasher) (s : HasherStep) : StepCases found s := by
  cases s with
  | create name algorithm =>
    rcases eq_or_ne algorithm "sha256" with rfl | hne
    · exact .keeps .new fun store _ => step_create store name
    · exact .fails _ fun store _ => step_create_of_ne store name hne
  | update name source =>
    rcases found with fault | h
    · exact .fails fault fun _ hfind => step_update_of_error hfind source
    · by_cases hsource : ∃ data, source = .bytes data
      · obtain ⟨data, rfl⟩ := hsource
        exact .keeps (h.update data) fun _ hfind => step_update hfind data
      · exact .fails _ fun _ hfind =>
          step_update_of_not_bytes hfind fun data heq => hsource ⟨data, heq⟩
  | finish name =>
    rcases found with fault | h
    · exact .fails fault fun _ hfind => step_finish_of_error hfind
    · exact .asks h.finish fun _ hfind => step_finish hfind

/-- A step that answers with a digest or a fault changes nothing. -/
theorem fst_step_of_answer {s : HasherStep} (h : (store.step s).2 ≠ .ok none) :
    (store.step s).1 = store := by
  cases step_cases (store.find s.name) s with
  | keeps _ hstep => exact absurd (by rw [hstep store rfl]) h
  | asks _ hstep => rw [hstep store rfl]
  | fails _ hstep => rw [hstep store rfl]

theorem finish_ne_ok_none (store : HasherStore) (name : String) :
    (store.step (.finish name)).2 ≠ .ok none := by
  cases hfind : store.find name with
  | error fault => simp [step_finish_of_error hfind]
  | ok h => simp [step_finish hfind]

/-- A step changes no hasher but the one that it is about. -/
theorem find_step_of_ne {s : HasherStep} {name : String} (hne : s.name ≠ name) :
    (store.step s).1.find name = store.find name := by
  cases step_cases (store.find s.name) s with
  | keeps h hstep => rw [hstep store rfl, find_keep_of_ne store h hne]
  | asks _ hstep => rw [hstep store rfl]
  | fails _ hstep => rw [hstep store rfl]

/-- A step answers by the hasher that it is about, and leaves a hasher that is made from it. -/
theorem step_congr {store' : HasherStore} {s : HasherStep}
    (hsame : store'.find s.name = store.find s.name) :
    (store'.step s).2 = (store.step s).2 ∧
      (store'.step s).1.find s.name = (store.step s).1.find s.name := by
  cases step_cases (store.find s.name) s with
  | keeps h hstep =>
    rw [hstep store rfl, hstep store' hsame]
    exact ⟨rfl, (find_keep_self _ _ _).trans (find_keep_self _ _ _).symm⟩
  | asks _ hstep =>
    rw [hstep store rfl, hstep store' hsame]
    exact ⟨rfl, hsame⟩
  | fails _ hstep =>
    rw [hstep store rfl, hstep store' hsame]
    exact ⟨rfl, hsame⟩

/-! ## What a hasher holds -/

/-- The hasher of a name is there, and was given exactly these bytes. -/
def Keeps (store : HasherStore) (name : String) (data : Bytes) : Prop :=
  ∃ h, store.find name = .ok h ∧ h.Holds data

theorem keeps_create (store : HasherStore) (name : String) :
    (store.step (.create name "sha256")).1.Keeps name [] := by
  rw [step_create]
  exact ⟨.new, find_keep_self store name .new, Hasher.holds_new⟩

/-- A step that does not create the hasher anew adds the bytes that it gives. -/
theorem Keeps.step {name : String} {data : Bytes} (held : store.Keeps name data) {s : HasherStep}
    (hs : s ≠ .create name "sha256") : (store.step s).1.Keeps name (data ++ s.given name) := by
  obtain ⟨h, hfind, hholds⟩ := held
  by_cases hname : s.name = name
  · subst hname
    cases s with
    | create name algorithm =>
      have hne : algorithm ≠ "sha256" := by
        rintro rfl
        exact hs rfl
      rw [step_create_of_ne store name hne, HasherStep.given_create, List.append_nil]
      exact ⟨h, hfind, hholds⟩
    | update name source =>
      change store.find name = .ok h at hfind
      by_cases hsource : ∃ more, source = .bytes more
      · obtain ⟨more, rfl⟩ := hsource
        rw [step_update hfind, HasherStep.name, HasherStep.given_update_bytes]
        exact ⟨h.update more, find_keep_self _ _ _, hholds.update more⟩
      · have hnot : ∀ more, source ≠ .bytes more := fun more heq => hsource ⟨more, heq⟩
        rw [step_update_of_not_bytes hfind hnot, HasherStep.given_update_of_not_bytes _ _ hnot,
          List.append_nil]
        exact ⟨h, hfind, hholds⟩
    | finish name =>
      change store.find name = .ok h at hfind
      rw [step_finish hfind, HasherStep.given_finish, List.append_nil]
      exact ⟨h, hfind, hholds⟩
  · rw [HasherStep.given_of_ne hname, List.append_nil]
    exact ⟨h, (find_step_of_ne hname).trans hfind, hholds⟩

/-! ## Runs -/

/-- The hashers after a run of steps. -/
def after (store : HasherStore) : List HasherStep → HasherStore
  | [] => store
  | s :: rest => (store.step s).1.after rest

theorem after_append (store : HasherStore) (first second : List HasherStep) :
    store.after (first ++ second) = (store.after first).after second := by
  induction first generalizing store with
  | nil => rfl
  | cons s first ih => exact ih (store.step s).1

theorem length_run (store : HasherStore) (steps : List HasherStep) :
    (store.run steps).length = steps.length := by
  induction steps generalizing store with
  | nil => rfl
  | cons s rest ih => rw [run, List.length_cons, List.length_cons, ih]

theorem run_append (store : HasherStore) (first second : List HasherStep) :
    store.run (first ++ second) = store.run first ++ (store.after first).run second := by
  induction first generalizing store with
  | nil => rfl
  | cons s first ih => exact congrArg (List.cons (store.step s).2) (ih (store.step s).1)

/-- A run that does not create the hasher anew adds what its steps give, in order. -/
theorem Keeps.after {name : String} {data : Bytes} (held : store.Keeps name data)
    {steps : List HasherStep} (hsteps : .create name "sha256" ∉ steps) :
    (store.after steps).Keeps name (data ++ steps.flatMap (·.given name)) := by
  induction steps generalizing store data with
  | nil => rwa [List.flatMap_nil, List.append_nil]
  | cons s rest ih =>
    have hs : s ≠ .create name "sha256" := (List.ne_of_not_mem_cons hsteps).symm
    have hrest : .create name "sha256" ∉ rest := List.not_mem_of_not_mem_cons hsteps
    rw [List.flatMap_cons, ← List.append_assoc]
    exact ih (held.step hs) hrest

/-- The bytes that the hasher of a name was given since it was last created, in order. -/
def Gave (history : List HasherStep) (name : String) (data : Bytes) : Prop :=
  ∃ before since : List HasherStep, history = before ++ .create name "sha256" :: since ∧
    .create name "sha256" ∉ since ∧ data = since.flatMap (·.given name)

theorem exists_gave_iff {history : List HasherStep} {name : String} :
    (∃ data, Gave history name data) ↔ .create name "sha256" ∈ history := by
  refine ⟨?_, fun hmem => ?_⟩
  · rintro ⟨_, before, since, rfl, -, -⟩
    exact List.mem_append_right _ List.mem_cons_self
  · -- the last creation is the first from the end
    obtain ⟨since, before, hsplit, hsince⟩ := List.eq_append_cons_of_mem (List.mem_reverse.mpr hmem)
    refine ⟨_, before.reverse, since.reverse, ?_, ?_, rfl⟩
    · rw [← List.reverse_reverse history, hsplit]
      simp
    · rwa [List.mem_reverse]

theorem Gave.keeps {history : List HasherStep} {name : String} {data : Bytes}
    (hgave : Gave history name data) : (after [] history).Keeps name data := by
  obtain ⟨before, since, rfl, hsince, rfl⟩ := hgave
  rw [after_append]
  exact (keeps_create (after [] before) name).after hsince

/-- What a step is answered that is taken after these others, whatever follows. -/
def AnswersWith (history : List HasherStep) (s : HasherStep)
    (answer : Except Fault (Option Digest)) : Prop :=
  ∀ rest, (run [] (history ++ s :: rest))[history.length]? = some answer

theorem answersWith_iff {history : List HasherStep} {s : HasherStep}
    {answer : Except Fault (Option Digest)} :
    AnswersWith history s answer ↔ ((after [] history).step s).2 = answer := by
  have hget : ∀ rest, (run [] (history ++ s :: rest))[history.length]? =
      some ((after [] history).step s).2 := by
    intro rest
    rw [run_append, List.getElem?_append_right (length_run [] history).le, length_run,
      Nat.sub_self]
    rfl
  exact ⟨fun h => Option.some.inj ((hget []).symm.trans (h [])), fun h rest => h ▸ hget rest⟩

/-- A step that changes nothing can be left out: all others are answered as they are with it. -/
theorem run_eraseIdx {history : List HasherStep} {s : HasherStep} (rest : List HasherStep)
    (hidle : ((after [] history).step s).1 = after [] history) :
    (run [] (history ++ s :: rest)).eraseIdx history.length = run [] (history ++ rest) := by
  rw [run_append, run_append, run, hidle, List.eraseIdx_append_of_length_le (length_run [] history).le,
    length_run, Nat.sub_self, List.eraseIdx_cons_zero]

/-! ## Steps on one hasher -/

/-- The answers that the steps on one hasher have in a run. -/
def answersOn (store : HasherStore) (name : String) (steps : List HasherStep) :
    List (Except Fault (Option Digest)) :=
  ((steps.zip (store.run steps)).filter fun entry => entry.1.name = name).map Prod.snd

theorem answersOn_cons (store : HasherStore) (name : String) (s : HasherStep)
    (rest : List HasherStep) :
    answersOn store name (s :: rest) = if s.name = name
      then (store.step s).2 :: answersOn (store.step s).1 name rest
      else answersOn (store.step s).1 name rest := by
  split <;> simp [answersOn, run, *]

/-- By induction on the run. The two stores agree on the hasher of the name and may differ in all
others: a step on another is taken by the first alone. -/
theorem answersOn_eq {store' : HasherStore} {name : String}
    (hsame : store'.find name = store.find name) (steps : List HasherStep) :
    answersOn store' name steps = store.run (steps.filter (·.name = name)) := by
  induction steps generalizing store store' with
  | nil => rfl
  | cons s rest ih =>
    rw [answersOn_cons, List.filter_cons]
    by_cases hname : s.name = name
    · subst hname
      obtain ⟨hanswer, hfind⟩ := step_congr hsame
      rw [if_pos rfl, if_pos (decide_eq_true rfl), run, hanswer, ih hfind]
    · rw [if_neg hname, if_neg (by simpa using hname)]
      exact ih ((find_step_of_ne hname).trans hsame)

/-! ## Whole runs -/

/-- Whatever the steps on however many hashers, and however mixed:

* every hasher that was created was given certain bytes since;
* a digest is that of all these bytes, hashed at once;
* an update with bytes succeeds, and one with another value fails;
* a hasher for another hash function is not created;
* a digest that was asked for, and a step that failed, can be left out: all other answers stay;
* the answers on one hasher are what they are without the steps on all others. -/
theorem run_hashes_given :
    (∀ (history : List HasherStep) (name : String),
      (∃ data, Gave history name data) ↔ .create name "sha256" ∈ history) ∧
    (∀ (history : List HasherStep) (name : String) (data : Bytes), Gave history name data →
      AnswersWith history (.finish name) ((Sha256.digestSource (.bytes data)).map some) ∧
      (∀ more, AnswersWith history (.update name (.bytes more)) (.ok none)) ∧
      ∀ source, (∀ more, source ≠ .bytes more) →
        AnswersWith history (.update name source) (.error .notBytes)) ∧
    (∀ (history : List HasherStep) (name algorithm : String), algorithm ≠ "sha256" →
      AnswersWith history (.create name algorithm) (.error (.unknownAlgorithm algorithm))) ∧
    (∀ (history : List HasherStep) (name : String) (rest : List HasherStep),
      (run [] (history ++ .finish name :: rest)).eraseIdx history.length =
        run [] (history ++ rest)) ∧
    (∀ (history : List HasherStep) (s : HasherStep) (fault : Fault),
      AnswersWith history s (.error fault) → ∀ rest : List HasherStep,
      (run [] (history ++ s :: rest)).eraseIdx history.length = run [] (history ++ rest)) ∧
    ∀ (name : String) (steps : List HasherStep),
      answersOn [] name steps = run [] (steps.filter (·.name = name)) := by
  refine ⟨fun history name => exists_gave_iff, ?_, ?_, ?_, ?_, ?_⟩
  · intro history name data hgave
    obtain ⟨h, hfind, hholds⟩ := hgave.keeps
    refine ⟨?_, fun more => ?_, fun source hsource => ?_⟩
    · rw [answersWith_iff, step_finish hfind, hholds.finish]
      rfl
    · rw [answersWith_iff, step_update hfind]
    · rw [answersWith_iff, step_update_of_not_bytes hfind hsource]
  · intro history name algorithm hne
    rw [answersWith_iff, step_create_of_ne _ _ hne]
  · intro history name rest
    exact run_eraseIdx rest (fst_step_of_answer (finish_ne_ok_none _ name))
  · intro history s fault hfault rest
    have hanswer := answersWith_iff.mp hfault
    exact run_eraseIdx rest (fst_step_of_answer (by simp [hanswer]))
  · exact fun name steps => answersOn_eq rfl steps

/-- Two hashers at once: the first is given `[1, 2]` and `[3]`, and in between a byte goes to the other,
a digest is asked for, a text is refused and another hash function too. -/
theorem run_hashes_given_mixed :
    let before : List HasherStep :=
      [.create "first" "sha256", .create "second" "sha256", .update "first" (.bytes [1, 2]),
        .update "second" (.bytes [9]), .finish "first"]
    let since : List HasherStep :=
      [.update "first" (.text []), .create "first" "md5", .update "first" (.bytes [3])]
    Gave (before ++ since) "first" [1, 2, 3] ∧
      AnswersWith (before ++ since) (.finish "first") (.ok (some (Sha256.digest [1, 2, 3]))) ∧
      AnswersWith before (.update "first" (.text [])) (.error .notBytes) ∧
      AnswersWith before (.create "first" "md5") (.error (.unknownAlgorithm "md5")) ∧
      (run [] (before ++ HasherStep.create "first" "md5" :: since)).eraseIdx 5 =
        run [] (before ++ since) := by
  obtain ⟨-, hgiven, hcreate, -, hfail, -⟩ := run_hashes_given
  refine ⟨⟨[], _, rfl, by decide, rfl⟩, ?_, ?_, ?_, ?_⟩
  · exact (hgiven _ "first" [1, 2, 3] ⟨[], _, rfl, by decide, rfl⟩).1
  · exact (hgiven _ "first" [1, 2] ⟨[], _, rfl, by decide, rfl⟩).2.2 (.text []) nofun
  · exact hcreate _ "first" "md5" (by decide)
  · exact hfail _ _ _ (hcreate _ "first" "md5" (by decide)) _

end HasherStore

end Ecdsa
