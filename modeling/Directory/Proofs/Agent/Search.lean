import Directory.Proofs.Partition.Scopes

namespace Directory.Agent

/-! # What a search finds

A search goes through its entries once and remembers the delegations that it met.  Since superiors
come first, each entry fares as it would if the search knew all delegations beforehand. -/

/-- Whether a search takes an entry for a delegation to report. -/
def stopsAt (mode : ReferralMode) (base : Dn) (entry : Entry) : Bool :=
  !(entry.dn == base) && entry.isReferral && !mode.managesDsaIt

/-- Whether one of the points lies above an entry, or an entry at which the search stops does. -/
def isHidden (mode : ReferralMode) (base : Dn) (points : List Dn) (entries : List Entry)
    (entry : Entry) : Bool :=
  points.any (fun point => point.isAncestorOf entry.dn) ||
    entries.any fun other => stopsAt mode base other && other.dn.isAncestorOf entry.dn

/-- The entries found and the delegations met, as the mode has them told. -/
def reported (mode : ReferralMode) (delegations found : List Entry) : SearchResult :=
  match mode with
  | .ignore => ⟨found, [], !delegations.isEmpty⟩
  | .throw | .manageDsaIt => ⟨found, delegations.map reference, false⟩

variable {schema : Schema} {filter : Filter} {mode : ReferralMode} {base : Dn} {points : List Dn}
  {entries rest delegations found : List Entry} {entry : Entry} {store : Store}

theorem reporting_reported : reporting mode entry (reported mode delegations found) =
    reported mode (entry :: delegations) found := by
  cases mode <;> rfl

theorem keeping_reported :
    { reported mode delegations found with entries := entry :: found } =
      reported mode delegations (entry :: found) := by
  cases mode <;> rfl

theorem entries_reported : (reported mode delegations found).entries = found := by
  cases mode <;> rfl

theorem isHidden_cons_of_hidden
    (above : points.any (fun point => point.isAncestorOf entry.dn) = true) (other : Entry) :
    isHidden mode base points (entry :: rest) other = isHidden mode base points rest other := by
  rw [isHidden, isHidden, List.any_cons]
  cases lower : entry.dn.isAncestorOf other.dn with
  | false => simp
  | true =>
    obtain ⟨point, listed, upper⟩ := List.any_eq_true.mp above
    have covered : points.any (fun point => point.isAncestorOf other.dn) = true :=
      List.any_eq_true.mpr ⟨point, listed, Dn.isAncestorOf_trans upper lower⟩
    simp [covered]

theorem isHidden_cons_of_stops (stops : stopsAt mode base entry = true) (other : Entry) :
    isHidden mode base points (entry :: rest) other =
      isHidden mode base (entry.dn :: points) rest other := by
  rw [isHidden, isHidden, List.any_cons, List.any_cons, stops, Bool.true_and, Bool.or_left_comm,
    Bool.or_assoc]

theorem isHidden_cons_of_passes (passes : stopsAt mode base entry = false) (other : Entry) :
    isHidden mode base points (entry :: rest) other = isHidden mode base points rest other := by
  rw [isHidden, isHidden, List.any_cons, passes, Bool.false_and, Bool.false_or]

theorem isHidden_head (clear : points.any (fun point => point.isAncestorOf entry.dn) = false)
    (later : ∀ other ∈ rest, other.dn.isAncestorOf entry.dn = false) :
    isHidden mode base points (entry :: rest) entry = false := by
  have behind : rest.any (fun other => stopsAt mode base other &&
      other.dn.isAncestorOf entry.dn) = false := by
    refine List.any_eq_false.mpr fun other listed => ?_
    simp [later other listed]
  rw [isHidden, clear, List.any_cons, Dn.isAncestorOf_irrefl, behind]
  simp

theorem gather_eq_reported
    (inOrder : entries.Pairwise fun earlier later => later.dn.isAncestorOf earlier.dn = false) :
    gather schema filter mode base points entries =
      reported mode
        (entries.filter fun entry => stopsAt mode base entry &&
          !isHidden mode base points entries entry)
        (entries.filter fun entry => filter.holds schema entry &&
          !stopsAt mode base entry && !isHidden mode base points entries entry) := by
  induction entries generalizing points with
  | nil => cases mode <;> rfl
  | cons entry rest ih =>
    obtain ⟨later, restInOrder⟩ := List.pairwise_cons.mp inOrder
    have tail (points : List Dn) := @ih points restInOrder
    rw [gather, List.filter_cons, List.filter_cons]
    cases above : points.any fun point => point.isAncestorOf entry.dn with
    | true =>
      have hidden : isHidden mode base points (entry :: rest) entry = true := by
        rw [isHidden, above, Bool.true_or]
      simp only [hidden, isHidden_cons_of_hidden above]
      simpa using tail points
    | false =>
      have shown : isHidden mode base points (entry :: rest) entry = false :=
        isHidden_head above later
      cases stops : stopsAt mode base entry with
      | true =>
        rw [stopsAt] at stops
        simp only [stops, shown, isHidden_cons_of_stops stops]
        simp [tail, reporting_reported]
      | false =>
        have passes := stops
        rw [stopsAt] at passes
        simp only [passes, shown, isHidden_cons_of_passes stops, tail, entries_reported]
        cases matched : filter.holds schema entry with
        | false => simp
        | true => simp [keeping_reported]

/-- The delegations strictly below the base that lie below no other such one. -/
def outermost (base : Dn) (inScope : List Entry) : List Entry :=
  let points := inScope.filter fun entry => entry.isReferral && base.isAncestorOf entry.dn
  points.filter fun entry => !points.any fun other => other.dn.isAncestorOf entry.dn

/-- The entries that are none of these delegations and lie below none of them. -/
def undelegated (base : Dn) (inScope : List Entry) : List Entry :=
  inScope.filter fun entry => entry ∉ outermost base inScope ∧
    ∀ point ∈ outermost base inScope, point.dn.isAncestorOf entry.dn = false

variable {inScope : List Entry} {point top : Entry} {scope : SearchScope} {suffix : Dn}

theorem stopsAt_eq (unmanaged : mode ≠ .manageDsaIt)
    (lies : base.isAncestorOrSelfOf entry.dn = true) :
    stopsAt mode base entry = (entry.isReferral && base.isAncestorOf entry.dn) := by
  have below : base.isAncestorOf entry.dn = !(entry.dn == base) := by
    rw [Bool.eq_iff_iff, Dn.isAncestorOf_iff, Bool.not_eq_true', ← Bool.not_eq_true,
      Dn.beq_iff_path, eq_comm (a := entry.dn.path)]
    exact and_iff_right lies
  have managed : mode.managesDsaIt = false := by simpa [ReferralMode.managesDsaIt] using unmanaged
  rw [stopsAt, managed, below, Bool.not_false, Bool.and_true, Bool.and_comm]

theorem mem_outermost_iff : entry ∈ outermost base inScope ↔
    (entry ∈ inScope ∧ entry.isReferral = true ∧ base.isAncestorOf entry.dn = true) ∧
      ∀ other ∈ inScope, other.isReferral = true → base.isAncestorOf other.dn = true →
        other.dn.isAncestorOf entry.dn = false := by
  simp only [outermost, List.mem_filter, Bool.and_eq_true, Bool.not_eq_true', List.any_eq_false,
    Bool.not_eq_true, and_imp]

/-- At or above each delegation below the base there is an outermost one. -/
theorem exists_outermost (listed : point ∈ inScope) (referral : point.isReferral = true)
    (strict : base.isAncestorOf point.dn = true) :
    ∃ top ∈ outermost base inScope, top.dn.isAncestorOrSelfOf point.dn = true := by
  induction counted : point.dn.length using Nat.strongRecOn generalizing point with
  | ind steps ih =>
    by_cases clear : ∀ other ∈ inScope, other.isReferral = true →
        base.isAncestorOf other.dn = true → other.dn.isAncestorOf point.dn = false
    · exact ⟨point, mem_outermost_iff.mpr ⟨⟨listed, referral, strict⟩, clear⟩,
        Dn.isAncestorOrSelfOf_refl point.dn⟩
    · simp only [not_forall, Bool.not_eq_false] at clear
      obtain ⟨other, otherListed, otherReferral, otherStrict, above⟩ := clear
      have shorter : other.dn.length < steps := by
        simp only [Dn.isAncestorOf, Bool.and_eq_true, decide_eq_true_eq] at above
        omega
      obtain ⟨top, isTop, upper⟩ := ih _ shorter otherListed otherReferral otherStrict rfl
      exact ⟨top, isTop, Dn.isAncestorOrSelfOf_trans upper (Dn.isAncestorOf_iff.mp above).1⟩

theorem outermost_eq (unmanaged : mode ≠ .manageDsaIt)
    (below : ∀ entry ∈ inScope, base.isAncestorOrSelfOf entry.dn = true) :
    outermost base inScope = inScope.filter fun entry =>
      stopsAt mode base entry && !isHidden mode base [] inScope entry := by
  rw [outermost, List.filter_filter]
  refine List.filter_congr fun entry listed => ?_
  have sameAbove : (inScope.filter fun other =>
        other.isReferral && base.isAncestorOf other.dn).any (·.dn.isAncestorOf entry.dn) =
      isHidden mode base [] inScope entry := by
    rw [isHidden, List.any_nil, Bool.false_or, List.any_filter, Bool.eq_iff_iff, List.any_eq_true,
      List.any_eq_true]
    refine exists_congr fun other => and_congr_right fun inside => ?_
    rw [stopsAt_eq unmanaged (below other inside)]
  rw [sameAbove, stopsAt_eq unmanaged (below entry listed), Bool.and_comm]

theorem stops_and_shown_iff (unmanaged : mode ≠ .manageDsaIt)
    (below : ∀ entry ∈ inScope, base.isAncestorOrSelfOf entry.dn = true)
    (listed : entry ∈ inScope) :
    (stopsAt mode base entry = true ∧ isHidden mode base [] inScope entry = false) ↔
      entry ∈ outermost base inScope := by
  simp [outermost_eq unmanaged below, listed]

theorem passes_and_shown_iff (unmanaged : mode ≠ .manageDsaIt)
    (below : ∀ entry ∈ inScope, base.isAncestorOrSelfOf entry.dn = true)
    (listed : entry ∈ inScope) :
    (stopsAt mode base entry = false ∧ isHidden mode base [] inScope entry = false) ↔
      entry ∉ outermost base inScope ∧
        ∀ point ∈ outermost base inScope, point.dn.isAncestorOf entry.dn = false := by
  constructor
  · rintro ⟨passes, shown⟩
    refine ⟨fun isTop => ?_, fun point isTop => ?_⟩
    · have stops := ((stops_and_shown_iff unmanaged below listed).mpr isTop).1
      simp [passes] at stops
    · have inside := (mem_outermost_iff.mp isTop).1.1
      have stops := ((stops_and_shown_iff unmanaged below inside).mpr isTop).1
      rw [isHidden, List.any_nil, Bool.false_or, List.any_eq_false] at shown
      simpa [stops] using shown point inside
  · rintro ⟨outside, clear⟩
    have shown : isHidden mode base [] inScope entry = false := by
      rw [isHidden, List.any_nil, Bool.false_or, List.any_eq_false]
      intro other inside hides
      rw [stopsAt_eq unmanaged (below other inside), Bool.and_eq_true, Bool.and_eq_true] at hides
      obtain ⟨⟨referral, strict⟩, above⟩ := hides
      obtain ⟨top, isTop, upper⟩ := exists_outermost inside referral strict
      have higher := Dn.isAncestorOf_of_isAncestorOrSelfOf upper above
      simp [clear top isTop] at higher
    refine ⟨?_, shown⟩
    rw [← Bool.not_eq_true]
    exact fun stops => outside ((stops_and_shown_iff unmanaged below listed).mp ⟨stops, shown⟩)

theorem gather_of_passes (passes : ∀ entry ∈ entries, stopsAt mode base entry = false) :
    gather schema filter mode base [] entries =
      reported mode [] (entries.filter (filter.holds schema)) := by
  induction entries with
  | nil => cases mode <;> rfl
  | cons entry rest ih =>
    have first := passes entry List.mem_cons_self
    have tail := ih fun other listed => passes other (List.mem_cons_of_mem _ listed)
    rw [stopsAt] at first
    rw [gather, List.any_nil, if_neg Bool.false_ne_true, first, if_neg Bool.false_ne_true, tail]
    simp only [entries_reported]
    cases matched : filter.holds schema entry with
    | false => simp [matched]
    | true => simp [matched, keeping_reported]

theorem searchStore_of_managed (filed : store.IsFiled suffix) (plain : store.HasPlainNames)
    (basePlain : base.HasPlainTypes) :
    searchStore schema store base scope filter .manageDsaIt = reported .manageDsaIt []
      ((store.inScope scope base).filter (filter.holds schema)) := by
  have unstopped : (store.find? base).filter (fun entry =>
      entry.isReferral && !ReferralMode.manageDsaIt.managesDsaIt) = none := by
    simp [ReferralMode.managesDsaIt]
  rw [searchStore, unstopped, filed.candidates_eq plain basePlain]
  exact gather_of_passes fun entry _ => by simp [stopsAt, ReferralMode.managesDsaIt]

theorem searchStore_of_entry (filed : store.IsFiled suffix) (plain : store.HasPlainNames)
    (basePlain : base.HasPlainTypes) (unmanaged : mode ≠ .manageDsaIt)
    (isEntry : ∀ top, store.find? base = some top → top.isReferral = false)
    (covered : store.inScope scope base = inScope) :
    searchStore schema store base scope filter mode = reported mode (outermost base inScope)
      ((undelegated base inScope).filter (filter.holds schema)) := by
  have inOrder : inScope.Pairwise fun earlier later => later.dn.isAncestorOf earlier.dn = false :=
    covered ▸ (filed.superiors_first plain).filter _
  have below : ∀ entry ∈ inScope, base.isAncestorOrSelfOf entry.dn = true := by
    intro entry listed
    exact Store.isAncestorOrSelfOf_of_inScope (covered ▸ listed)
  have unstopped : (store.find? base).filter (fun entry =>
      entry.isReferral && !mode.managesDsaIt) = none := by
    rw [Option.filter_eq_none_iff]
    intro top stored
    simp [isEntry top stored]
  have sameFound : (undelegated base inScope).filter (filter.holds schema) =
      inScope.filter fun entry => filter.holds schema entry && !stopsAt mode base entry &&
        !isHidden mode base [] inScope entry := by
    rw [undelegated, List.filter_filter]
    refine List.filter_congr fun entry listed => ?_
    have found := passes_and_shown_iff unmanaged below listed
    rw [Bool.and_assoc, Bool.eq_iff_iff, Bool.and_eq_true, Bool.and_eq_true, decide_eq_true_eq,
      ← found]
    simp
  rw [searchStore, unstopped, filed.candidates_eq plain basePlain, covered]
  simp only [gather_eq_reported inOrder, sameFound, outermost_eq unmanaged below]

theorem searchStore_of_delegation (filed : store.IsFiled suffix) (plain : store.HasPlainNames)
    (basePlain : base.HasPlainTypes) (unmanaged : mode ≠ .manageDsaIt)
    (stored : store.find? base = some top) (referral : top.isReferral = true) :
    searchStore schema store base scope filter mode =
      reported mode (if scope = .base then [] else [top])
        ((store.inScope scope base).filter fun entry =>
          filter.holds schema entry && entry.dn == base) := by
  have stopped : (store.find? base).filter (fun entry =>
      entry.isReferral && !mode.managesDsaIt) = some top := by
    rw [stored, Option.filter_some, if_pos]
    simp [referral, ReferralMode.managesDsaIt, unmanaged]
  have alone (inScope : List Entry) :
      ∀ entry ∈ inScope.filter fun entry => entry.dn == base, stopsAt mode base entry = false := by
    intro entry listed
    simp [stopsAt, (List.mem_filter.mp listed).2]
  rw [searchStore, stopped, filed.candidates_eq plain basePlain]
  simp only [gather_of_passes (alone _), List.filter_filter (p := filter.holds schema)]
  split
  · rfl
  · exact reporting_reported

end Directory.Agent
