namespace Directory

/-! # Refusals

Checks that a computation passes one after the other; the first that fails ends it. -/

/-- Ends a computation if there is a fault. -/
def refuseIf (fault : Bool) (refusal : ε) : Except ε Unit :=
  if fault then .error refusal else .ok ()

/-- Ends a computation if a fault was found. -/
def refuseAny (fault? : Option α) (refusal : α → ε) : Except ε Unit :=
  match fault? with
  | none => .ok ()
  | some fault => .error (refusal fault)

theorem refuseIf_eq_ok_iff {fault : Bool} {refusal : ε} {result : Unit} :
    refuseIf fault refusal = .ok result ↔ fault = false := by
  cases fault <;> simp [refuseIf]

theorem refuseIf_eq_error_iff {fault : Bool} {refusal other : ε} :
    refuseIf fault refusal = .error other ↔ fault = true ∧ refusal = other := by
  cases fault <;> simp [refuseIf]

theorem refuseAny_eq_ok_iff {fault? : Option α} {refusal : α → ε} {result : Unit} :
    refuseAny fault? refusal = .ok result ↔ fault? = none := by
  cases fault? <;> simp [refuseAny]

theorem refuseAny_eq_error_iff {fault? : Option α} {refusal : α → ε} {other : ε} :
    refuseAny fault? refusal = .error other ↔
      ∃ fault, fault? = some fault ∧ refusal fault = other := by
  cases fault? <;> simp [refuseAny]

/-- A computation of two parts succeeds if both do. -/
theorem bind_eq_ok_iff {first : Except ε α} {next : α → Except ε β} {result : β} :
    (first >>= next) = .ok result ↔ ∃ value, first = .ok value ∧ next value = .ok result := by
  cases first <;> simp [bind, Except.bind]

/-- A computation of two parts fails if the first does, or the second after it. -/
theorem bind_eq_error_iff {first : Except ε α} {next : α → Except ε β} {refusal : ε} :
    (first >>= next) = .error refusal ↔
      first = .error refusal ∨ ∃ value, first = .ok value ∧ next value = .error refusal := by
  cases first <;> simp [bind, Except.bind]

theorem map_eq_ok_iff {computed : Except ε α} {change : α → β} {result : β} :
    computed.map change = .ok result ↔ ∃ value, computed = .ok value ∧ change value = result := by
  cases computed <;> simp [Except.map]

theorem mapError_eq_ok_iff {computed : Except ε α} {change : ε → δ} {result : α} :
    computed.mapError change = .ok result ↔ computed = .ok result := by
  constructor
  · intro computes
    cases computed with
    | error refusal => cases computes
    | ok value =>
      cases computes
      rfl
  · rintro rfl
    rfl

theorem mapM_cons_eq_ok_iff {compute : α → Except ε β} {first : α} {rest : List α}
    {results : List β} :
    (first :: rest).mapM compute = .ok results ↔
      ∃ result others, compute first = .ok result ∧ rest.mapM compute = .ok others ∧
        results = result :: others := by
  rw [List.mapM_cons]
  cases compute first with
  | error refusal => simp [bind, Except.bind]
  | ok result =>
    cases rest.mapM compute with
    | error refusal => simp [bind, Except.bind]
    | ok others => simp [bind, Except.bind, pure, Except.pure, eq_comm]

theorem mapM_some_eq_ok_iff {compute : α → Except ε β} {member : α} {result? : Option β} :
    (some member).mapM compute = .ok result? ↔
      ∃ result, compute member = .ok result ∧ some result = result? := by
  show Except.map some (compute member) = .ok result? ↔ _
  exact map_eq_ok_iff

/-- Every result was computed from a member of the list. -/
theorem exists_of_mem_mapM {compute : α → Except ε β} {members : List α} {results : List β}
    (computed : members.mapM compute = .ok results) {result : β} (listed : result ∈ results) :
    ∃ member ∈ members, compute member = .ok result := by
  induction members generalizing results with
  | nil =>
    cases computed
    simp at listed
  | cons first rest ih =>
    obtain ⟨head, others, headComputed, othersComputed, rfl⟩ := mapM_cons_eq_ok_iff.mp computed
    rcases List.mem_cons.mp listed with rfl | listed
    · exact ⟨first, List.mem_cons_self, headComputed⟩
    · obtain ⟨member, isMember, found⟩ := ih othersComputed listed
      exact ⟨member, List.mem_cons_of_mem _ isMember, found⟩

/-- Every member of the list has its result. -/
theorem exists_mem_of_mapM {compute : α → Except ε β} {members : List α} {results : List β}
    (computed : members.mapM compute = .ok results) {member : α} (listed : member ∈ members) :
    ∃ result ∈ results, compute member = .ok result := by
  induction members generalizing results with
  | nil => simp at listed
  | cons first rest ih =>
    obtain ⟨head, others, headComputed, othersComputed, rfl⟩ := mapM_cons_eq_ok_iff.mp computed
    rcases List.mem_cons.mp listed with rfl | listed
    · exact ⟨head, List.mem_cons_self, headComputed⟩
    · obtain ⟨result, isResult, found⟩ := ih othersComputed listed
      exact ⟨result, List.mem_cons_of_mem _ isResult, found⟩

theorem mem_mapM_iff {compute : α → Except ε β} {members : List α} {results : List β}
    (computed : members.mapM compute = .ok results) {result : β} :
    result ∈ results ↔ ∃ member ∈ members, compute member = .ok result := by
  refine ⟨exists_of_mem_mapM computed, ?_⟩
  rintro ⟨member, listed, computes⟩
  obtain ⟨other, isResult, found⟩ := exists_mem_of_mapM computed listed
  obtain rfl := Except.ok.inj (found.symm.trans computes)
  exact isResult

theorem exists_mapM_eq_ok_iff {compute : α → Except ε β} {members : List α} :
    (∃ results, members.mapM compute = .ok results) ↔
      ∀ member ∈ members, ∃ result, compute member = .ok result := by
  induction members with
  | nil => exact ⟨nofun, fun _ => ⟨[], rfl⟩⟩
  | cons first rest ih =>
    rw [List.forall_mem_cons, ← ih]
    constructor
    · rintro ⟨results, computed⟩
      obtain ⟨result, others, computes, later, _⟩ := mapM_cons_eq_ok_iff.mp computed
      exact ⟨⟨result, computes⟩, others, later⟩
    · rintro ⟨⟨result, computes⟩, others, later⟩
      exact ⟨result :: others, mapM_cons_eq_ok_iff.mpr ⟨result, others, computes, later, rfl⟩⟩

/-- The computation for a list fails where that for one of its members does. -/
theorem exists_of_mapM_eq_error {compute : α → Except ε β} {members : List α} {refusal : ε}
    (refused : members.mapM compute = .error refusal) :
    ∃ member ∈ members, compute member = .error refusal := by
  induction members with
  | nil => cases refused
  | cons first rest ih =>
    rw [List.mapM_cons, bind_eq_error_iff] at refused
    rcases refused with here | ⟨result, _, refused⟩
    · exact ⟨first, List.mem_cons_self, here⟩
    · rcases bind_eq_error_iff.mp refused with later | ⟨others, _, impossible⟩
      · obtain ⟨member, listed, fails⟩ := ih later
        exact ⟨member, List.mem_cons_of_mem _ listed, fails⟩
      · cases impossible

/-- Whatever the computation refuses with is allowed. -/
def RefusesOnly (allowed : ε → Prop) (computed : Except ε α) : Prop :=
  ∀ refusal, computed = .error refusal → allowed refusal

namespace RefusesOnly

variable {ε α β : Type} {allowed weaker : ε → Prop} {computed : Except ε α}
  {next : α → Except ε β}

theorem ok (value : α) : RefusesOnly allowed (.ok value) := nofun

theorem error {refusal : ε} (isAllowed : allowed refusal) :
    RefusesOnly allowed (.error refusal : Except ε α) := by
  rintro _ ⟨⟩
  exact isAllowed

theorem mono (refuses : RefusesOnly allowed computed)
    (implies : ∀ refusal, allowed refusal → weaker refusal) : RefusesOnly weaker computed :=
  fun refusal refused => implies refusal (refuses refusal refused)

theorem bind (first : RefusesOnly allowed computed)
    (later : ∀ value, computed = .ok value → RefusesOnly allowed (next value)) :
    RefusesOnly allowed (computed >>= next) := by
  intro refusal refused
  rcases bind_eq_error_iff.mp refused with early | ⟨value, computes, late⟩
  · exact first refusal early
  · exact later value computes refusal late

theorem map (refuses : RefusesOnly allowed computed) (change : α → β) :
    RefusesOnly allowed (computed.map change) := by
  cases computed with
  | ok value => exact ok (change value)
  | error refusal => exact error (refuses refusal rfl)

theorem mapM {compute : α → Except ε β} (each : ∀ member, RefusesOnly allowed (compute member))
    (members : List α) : RefusesOnly allowed (members.mapM compute) := by
  induction members with
  | nil => exact ok []
  | cons first rest ih =>
    rw [List.mapM_cons]
    exact (each first).bind fun result _ => ih.bind fun results _ => ok (result :: results)

theorem optionMapM {compute : α → Except ε β}
    (each : ∀ member, RefusesOnly allowed (compute member)) (member? : Option α) :
    RefusesOnly allowed (member?.mapM compute) := by
  cases member? with
  | none => exact ok none
  | some member => exact (each member).bind fun result _ => ok (some result)

theorem refuseIf {fault : Bool} {refusal : ε} (isAllowed : allowed refusal) :
    RefusesOnly allowed (Directory.refuseIf fault refusal) := by
  intro other refused
  obtain ⟨_, rfl⟩ := refuseIf_eq_error_iff.mp refused
  exact isAllowed

theorem refuseAny {fault? : Option α} {refusal : α → ε}
    (areAllowed : ∀ fault, allowed (refusal fault)) :
    RefusesOnly allowed (Directory.refuseAny fault? refusal) := by
  intro other refused
  obtain ⟨fault, _, rfl⟩ := refuseAny_eq_error_iff.mp refused
  exact areAllowed fault

end RefusesOnly

end Directory
