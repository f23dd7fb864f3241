import Campaign.Environment.Load
import Campaign.Proofs.Entries

/-!
# What loading a binding file adds

Loading goes through the variables of the nearest binding file, each with the value of its last
binding (`found`, `bound?`).  One that the environment has already keeps its value there, and one
without a value adds nothing.  The others are added, up to one that the system cannot hold.

* `resolveAll_eq`: references are put in binding by binding, and the last binding of a name counts.
* `addAll_spec`: **what is added**, variable by variable, and where it ends.
* `get?_merged`: if the system can hold them all, **the environment goes first**, and the binding
  file says what it lacks.
* `merged_again`: loading the file once more changes nothing.
-/

namespace Campaign

namespace Environment

/-! ### The bindings of a file -/

/-- Bindings with references put in, in order: a text may refer to what is in the environment and to
what was bound before it, the environment first. -/
def putIn (env : Environment) :
    Table String (Option String) → List Binding → List (String × Option String)
  | _, [] => []
  | seen, b :: bs =>
    let value := b.value.map (Reference.resolve fun name =>
      (env.get? name).or ((seen.get? name).map (·.getD "")))
    (b.name, value) :: putIn env (seen.put b.name value) bs

theorem resolveAll_eq (env : Environment) (bs : List Binding) :
    env.resolveAll bs = .ofList (putIn env .empty bs) := by
  rw [resolveAll, Table.ofList]
  generalize Table.empty = seen
  induction bs generalizing seen with
  | nil => rfl
  | cons b bs ih =>
    rw [List.foldl_cons, ih]
    rfl

/-- The bindings that are loaded: those of the nearest binding file, unless there is none or loading
is switched off. -/
def found (env : Environment) (files : Files) (withFile : Bool) : List (String × Option String) :=
  if withFile && !env.isOff then
    match files.nearest? ".env" with
    | none => []
    | some text => putIn env .empty (bindings text)
  else []

/-- The value of the last binding of a name, if that has one. -/
def bound? (bs : List (String × Option String)) (name : String) : Option String :=
  (Table.find? name bs.reverse).join

/-- The environment with some bindings loaded, and what ended this early. -/
def merged (env : Environment) (bs : List (String × Option String)) :
    Environment × Option Fault :=
  env.addAll (Table.ofList bs).entries

theorem load_eq (env : Environment) (files : Files) (withFile : Bool) :
    (if withFile then env.load files else (env, none)) = env.merged (env.found files withFile) := by
  cases withFile with
  | false => rfl
  | true =>
    rw [if_pos rfl, load, found]
    cases env.isOff with
    | true => rfl
    | false =>
      cases files.nearest? ".env" with
      | none => rfl
      | some text => exact congrArg (fun t => env.addAll t.entries) (resolveAll_eq env _)

/-- Whether a name has a value does not depend on what its text refers to. -/
theorem isSome_bound?_putIn (env other : Environment) (name : String) (bs : List Binding) :
    (bound? (putIn env .empty bs) name).isSome = (bound? (putIn other .empty bs) name).isSome := by
  -- what can be found is told by the names, and by which of them have a value
  have hfind : ∀ es : List (String × Option String), (Table.find? name es).join.isSome =
      (Table.find? name (es.map fun e => (e.1, e.2.isSome))).getD false := by
    intro es
    induction es with
    | nil => rfl
    | cons e es ih =>
      simp only [List.map_cons, Table.find?]
      split
      · cases e.2 <;> rfl
      · exact ih
  have hshape : ∀ (bs : List Binding) (env : Environment) (seen : Table String (Option String)),
      (putIn env seen bs).map (fun e => (e.1, e.2.isSome)) =
        bs.map fun b => (b.name, b.value.isSome) := by
    intro bs
    induction bs with
    | nil => exact fun _ _ => rfl
    | cons b bs ih =>
      intro env seen
      simp [putIn, ih]
  rw [bound?, bound?, hfind, hfind, List.map_reverse, List.map_reverse, hshape, hshape]

/-! ### What a system can hold -/

/-- A variable that a system can hold: its name has no equals sign, and there is no null character
in it. -/
def Holdable (name value : String) : Prop :=
  '=' ∉ name.toList ∧ Char.ofNat 0 ∉ name.toList ∧ Char.ofNat 0 ∉ value.toList

instance (name value : String) : Decidable (Holdable name value) :=
  inferInstanceAs (Decidable (_ ∧ _ ∧ _))

theorem refusal?_eq_none {name value : String} :
    refusal? name value = none ↔ Holdable name value := by
  rw [refusal?, Holdable]
  split
  · rename_i hnul
    simp only [Bool.or_eq_true, List.contains_iff_mem] at hnul
    simp only [reduceCtorEq, false_iff]
    tauto
  · rename_i hnul
    simp only [Bool.or_eq_true, List.contains_iff_mem, not_or] at hnul
    simp [hnul]

/-- A system refuses a variable by an error about its value. -/
theorem kind_of_refusal? {name value : String} {f : Fault} (h : refusal? name value = some f) :
    f.kind = "ValueError" := by
  simp only [refusal?] at h
  split at h
  · obtain rfl := Option.some.inj h
    rfl
  · split at h
    · obtain rfl := Option.some.inj h
      rfl
    · cases h

/-- **The system can hold what an environment lacks** of some bindings. -/
def Holds (env : Environment) (bs : List (String × Option String)) : Prop :=
  ∀ name value, env.get? name = none → bound? bs name = some value → Holdable name value

theorem holds_of_forall {env : Environment} {bs : List (String × Option String)}
    (h : ∀ e ∈ bs, ∀ value ∈ e.2, Holdable e.1 value) : Holds env bs := by
  intro name value _ hbound
  have hmem := Table.mem_of_find? (Option.join_eq_some_iff.mp hbound)
  exact h (name, some value) (List.mem_reverse.mp hmem) value rfl

/-! ### What is added -/

variable {env : Environment}

/-- **What adding variables comes to.**  Of the ones that are done, those that were absent have been
added, and could be held.  It has ended with all done, or before one that is absent and refused. -/
structure Added (env : Environment) (done rest : List (String × Option String))
    (result : Environment × Option Fault) : Prop where
  get? : ∀ name, result.1.get? name = (env.get? name).or (Table.find? name done).join
  held : ∀ name value, (name, some value) ∈ done → env.get? name = none → Holdable name value
  ends : (rest = [] ∧ result.2 = none) ∨ ∃ name value after f,
    rest = (name, some value) :: after ∧ env.get? name = none ∧ refusal? name value = some f ∧
      result.2 = some f

namespace Added

variable {done rest : List (String × Option String)} {result : Environment × Option Fault}

theorem nil (hends : (rest = [] ∧ result = (env, none)) ∨ ∃ name value after f,
    rest = (name, some value) :: after ∧ env.get? name = none ∧ refusal? name value = some f ∧
      result = (env, some f)) : Added env [] rest result := by
  rcases hends with ⟨rfl, rfl⟩ | ⟨name, value, after, f, rfl, habsent, hrefusal, rfl⟩
  · exact ⟨fun name => by simp [Table.find?], by simp, Or.inl ⟨rfl, rfl⟩⟩
  · exact ⟨fun name => by simp [Table.find?], by simp,
      Or.inr ⟨name, value, after, f, rfl, habsent, hrefusal, rfl⟩⟩

/-- One variable more, in front of the others. -/
theorem cons {next : Environment} {e : String × Option String} (hnew : e.1 ∉ done.map (·.1))
    (hnext : ∀ name, next.get? name = (env.get? name).or (if e.1 = name then e.2 else none))
    (hheld : ∀ value, e.2 = some value → env.get? e.1 = none → Holdable e.1 value)
    (h : Added next done rest result) : Added env (e :: done) rest result where
  get? name := by
    rw [h.get?, hnext, Option.or_assoc, Table.find?]
    by_cases hname : e.1 = name
    · have hnone : Table.find? name done = none :=
        (Table.get?_eq_none_iff ⟨done⟩ name).mpr (hname ▸ hnew)
      simp [hname, hnone]
    · simp [hname]
  held name value hmem habsent := by
    rcases List.mem_cons.mp hmem with rfl | hmem
    · exact hheld value rfl habsent
    · have hne : e.1 ≠ name := fun hname => hnew (List.mem_map.mpr ⟨_, hmem, hname.symm⟩)
      refine h.held name value hmem ?_
      rw [hnext, habsent, if_neg hne, Option.or_none]
  ends := by
    refine h.ends.imp_right ?_
    rintro ⟨name, value, after, f, hrest, habsent, hrefusal⟩
    rw [hnext, Option.or_eq_none_iff] at habsent
    exact ⟨name, value, after, f, hrest, habsent.1, hrefusal⟩

end Added

/-- **Variables are added one by one**, up to the first that is absent and cannot be held. -/
theorem addAll_spec : ∀ (es : List (String × Option String)) (env : Environment),
    (es.map (·.1)).Nodup → ∃ done rest, es = done ++ rest ∧ Added env done rest (env.addAll es)
  | [], env, _ => ⟨[], [], rfl, .nil (Or.inl ⟨rfl, rfl⟩)⟩
  | (name, none) :: es, env, hnodup => by
    obtain ⟨hnew, hnodup⟩ := List.nodup_cons.mp hnodup
    obtain ⟨done, rest, rfl, hadded⟩ := addAll_spec es env hnodup
    refine ⟨(name, none) :: done, rest, rfl, hadded.cons ?_ (fun n => by simp) nofun⟩
    exact fun hmem => hnew (by simpa using Or.inl (by simpa using hmem))
  | (name, some value) :: es, env, hnodup => by
    obtain ⟨hnew, hnodup⟩ := List.nodup_cons.mp hnodup
    have hfirst : ∀ {done rest : List (String × Option String)}, es = done ++ rest →
        name ∉ done.map (·.1) := by
      rintro done rest rfl hmem
      exact hnew (by simpa using Or.inl (by simpa using hmem))
    cases hold : env.get? name with
    | some old =>
      -- what is there already is passed over, whatever the binding says
      obtain ⟨done, rest, hes, hadded⟩ := addAll_spec es env hnodup
      have hskip : env.addAll ((name, some value) :: es) = env.addAll es :=
        if_pos (by rw [Table.has, hold]; rfl)
      rw [hskip]
      refine ⟨(name, some value) :: done, rest, by rw [hes]; rfl,
        hadded.cons (hfirst hes) (fun n => ?_) fun v _ habsent => ?_⟩
      · split
        · rename_i hn
          rw [← hn, hold]
          rfl
        · rw [Option.or_none]
      · cases hold.symm.trans habsent
    | none =>
      have hlacks : ¬ Table.has env name = true := by simp [Table.has, hold]
      cases hrefusal : refusal? name value with
      | some f =>
        refine ⟨[], _, rfl, .nil (Or.inr ⟨name, value, es, f, rfl, hold, hrefusal, ?_⟩)⟩
        rw [addAll, if_neg hlacks, hrefusal]
      | none =>
        obtain ⟨done, rest, hes, hadded⟩ := addAll_spec es (Table.put env name value) hnodup
        have hput :
            env.addAll ((name, some value) :: es) = addAll (Table.put env name value) es := by
          rw [addAll, if_neg hlacks, hrefusal]
        rw [hput]
        refine ⟨(name, some value) :: done, rest, by rw [hes]; rfl,
          hadded.cons (hfirst hes) (fun n => ?_) fun v hv _ => ?_⟩
        · rw [Table.get?_put]
          split
          · rename_i hn
            rw [← hn, hold]
            rfl
          · rw [Option.or_none]
        · obtain rfl := Option.some.inj hv
          exact refusal?_eq_none.mp hrefusal

/-- Nothing is added if nothing is absent. -/
theorem addAll_of_has : ∀ {es : List (String × Option String)},
    (∀ name value, (name, some value) ∈ es → (env.get? name).isSome) → env.addAll es = (env, none)
  | [], _ => rfl
  | (name, none) :: es, h => by
    rw [addAll]
    exact addAll_of_has fun n v hmem => h n v (List.mem_cons_of_mem _ hmem)
  | (name, some value) :: es, h => by
    rw [addAll, Table.has, if_pos (h name value List.mem_cons_self)]
    exact addAll_of_has fun n v hmem => h n v (List.mem_cons_of_mem _ hmem)

/-! ### Bindings that are loaded -/

variable {bs : List (String × Option String)}

theorem find?_ofList (name : String) :
    (Table.find? name (Table.ofList bs).entries).join = bound? bs name :=
  congrArg Option.join (Table.get?_ofList name bs)

theorem nodup_ofList : ((Table.ofList bs).entries.map (·.1)).Nodup := (Table.keys_ofList bs).1

theorem bound?_of_mem {name : String} {value? : Option String}
    (h : (name, value?) ∈ (Table.ofList bs).entries) : bound? bs name = value? := by
  rw [← find?_ofList, Table.find?_of_mem nodup_ofList h]
  rfl

theorem merged_spec (env : Environment) (bs : List (String × Option String)) :
    ∃ done rest, (Table.ofList bs).entries = done ++ rest ∧ Added env done rest (env.merged bs) :=
  addAll_spec _ env nodup_ofList

/-- **What the environment has stays, and what is new comes from the bindings.** -/
theorem get?_merged_cases (name : String) :
    (env.merged bs).1.get? name = env.get? name ∨
      env.get? name = none ∧ (env.merged bs).1.get? name = bound? bs name := by
  obtain ⟨done, rest, hes, hadded⟩ := merged_spec env bs
  have hget : (env.merged bs).1.get? name = _ := hadded.get? name
  cases hold : env.get? name with
  | some old => exact Or.inl (by rw [hget, hold]; rfl)
  | none =>
    cases hdone : (Table.find? name done).join with
    | none => exact Or.inl (by rw [hget, hold, hdone]; rfl)
    | some value =>
      refine Or.inr ⟨rfl, ?_⟩
      have hmem := Table.mem_of_find? (Option.join_eq_some_iff.mp hdone)
      rw [hget, hold, hdone, bound?_of_mem (hes ▸ List.mem_append_left rest hmem)]
      rfl

/-- **The environment goes first**, and the bindings say what it lacks, if the system can hold
that. -/
theorem get?_merged (hholds : env.Holds bs) :
    (∀ name, (env.merged bs).1.get? name = (env.get? name).or (bound? bs name)) ∧
      (env.merged bs).2 = none := by
  obtain ⟨done, rest, hes, hadded⟩ := merged_spec env bs
  rcases hadded.ends with ⟨rfl, hnone⟩ | ⟨name, value, after, f, rfl, habsent, hrefusal, -⟩
  · rw [List.append_nil] at hes
    refine ⟨fun name => ?_, hnone⟩
    rw [← find?_ofList, hes]
    exact hadded.get? name
  · have hmem : (name, some value) ∈ (Table.ofList bs).entries := by simp [hes]
    have hheld : Holdable name value := hholds name value habsent (bound?_of_mem hmem)
    cases (refusal?_eq_none.mpr hheld).symm.trans hrefusal

/-- **One variable that cannot be held ends the loading**; those before it have been added. -/
theorem merged_refused (hholds : ¬ env.Holds bs) :
    ∃ done name value after f, (Table.ofList bs).entries = done ++ (name, some value) :: after ∧
      (∀ n, (env.merged bs).1.get? n = (env.get? n).or (Table.find? n done).join) ∧
      env.get? name = none ∧ bound? bs name = some value ∧ ¬ Holdable name value ∧
      (env.merged bs).2 = some f ∧ f.kind = "ValueError" := by
  obtain ⟨done, rest, hes, hadded⟩ := merged_spec env bs
  rcases hadded.ends with ⟨rfl, -⟩ | ⟨name, value, after, f, rfl, habsent, hrefusal, hfault⟩
  · refine absurd (fun name value habsent hbound => ?_) hholds
    rw [← find?_ofList, hes, List.append_nil] at hbound
    exact hadded.held name value (Table.mem_of_find? (Option.join_eq_some_iff.mp hbound)) habsent
  · have hmem : (name, some value) ∈ (Table.ofList bs).entries := by simp [hes]
    refine ⟨done, name, value, after, f, hes, hadded.get?, habsent, bound?_of_mem hmem,
      fun hheld => ?_, hfault, kind_of_refusal? hrefusal⟩
    cases (refusal?_eq_none.mpr hheld).symm.trans hrefusal

/-- The names with values are found again in what comes of loading them. -/
theorem isSome_bound?_found {after : Environment} {files : Files} {withFile again : Bool}
    (hagain : again = true → withFile = true) (hoff : env.isOff = true → after.isOff = true)
    {name : String} (h : (bound? (found after files again) name).isSome) :
    (bound? (found env files withFile) name).isSome := by
  rw [found] at h
  split at h
  · rename_i hread
    simp only [Bool.and_eq_true, Bool.not_eq_true'] at hread
    have hon : env.isOff = false := Bool.eq_false_iff.mpr fun hon => by
      rw [hoff hon] at hread
      cases hread.2
    cases hnearest : files.nearest? ".env" with
    | none =>
      rw [hnearest] at h
      cases h
    | some text =>
      rw [hnearest] at h
      rw [found, hagain hread.1, hon, hnearest]
      exact (isSome_bound?_putIn env after name _).trans h
  · cases h

/-- **Loading once more changes nothing.** -/
theorem merged_again {files : Files} {withFile again : Bool}
    (hagain : again = true → withFile = true) (hholds : env.Holds (env.found files withFile)) :
    let after := (env.merged (env.found files withFile)).1
    after.merged (found after files again) = (after, none) := by
  intro after
  obtain ⟨hget, -⟩ := get?_merged hholds
  have hoff : env.isOff = true → after.isOff = true := by
    intro hoff
    have hnone : env.found files withFile = [] := by simp [found, hoff]
    have hsame : after = env := by
      change (env.merged (env.found files withFile)).1 = env
      rw [hnone]
      rfl
    rw [hsame, hoff]
  -- the file may give other values now, but to the same names, and these are all there
  refine addAll_of_has fun name value hmem => ?_
  have hbound : (bound? (found after files again) name).isSome := by
    rw [bound?_of_mem hmem]
    rfl
  have hfound := isSome_bound?_found hagain hoff hbound
  rw [hget name, Option.isSome_or, hfound, Bool.or_true]

end Environment

end Campaign
