import Sow.Js.Int32
import Sow.Workflows.Activities.BuildOutputs

open sow.js sow.contracts

namespace sow.workflows

/-- `Number(digits)` of an index, or nothing where it is infinite. -/
def numberOf (n : Nat) : Option Nat :=
  let number := (roundDouble n).natAbs
  if number < 2 ^ 1024 then some number else none

/-- The step of the scan for the highest index. -/
def higher (highest : Int) (n : Nat) : Int :=
  match numberOf n with
  | some number => if (number : Int) > highest then number else highest
  | none => highest

/-- The highest index of an action item, or -1. -/
def highestActionIndex (fields : ExtractionFields) : Int := (fields.keys.filterMap actionIndex).foldl higher (-1)

/-- The loop over the items, `fuel` steps of it. -/
def actionLoop (fields : ExtractionFields) (workspaceId : JsString) (lastIndex : Int) :
    Nat → Nat → List DerivedActionDescriptor → Option (List DerivedActionDescriptor)
  | 0, _, _ => none
  | fuel + 1, i, actions =>
    if (i : Int) ≤ lastIndex then
      actionLoop fields workspaceId lastIndex fuel (numberPlus i 1).toNat (actions ++ (deriveAction fields workspaceId i).toList)
    else some actions

/-- `meetingOutputsProjection.project`, where its loop ends within `fuel` steps. -/
def projectMeeting (tables : SlugTables) (fields : ExtractionFields) (workspaceId : JsString) (noteExists : Bool) (fuel : Nat) :
    Option (Except BuildOutputsFailure (ProjectNoteMutation × List DerivedActionDescriptor)) :=
  match projectMeetingNote tables fields workspaceId noteExists with
  | .error refusal => some (.error refusal)
  | .ok mutation =>
    (actionLoop fields workspaceId (highestActionIndex fields) fuel 0 []).map fun actions => .ok (mutation, actions)

section number

theorem numberOf_of_lt {n : Nat} (h : n < 2 ^ 53) : numberOf n = some n := by
  unfold numberOf
  have hround := @roundDouble_of_le n (by omega)
  have hpow : 2 ^ 53 < 2 ^ 1024 := Nat.pow_lt_pow_right (by omega) (by omega)
  simp only [hround, Int.natAbs_natCast]
  exact if_pos (h.trans hpow)

/-- A number above `2 ^ 53` is rounded to a multiple of the unit in its last place, up or down. -/
theorem roundDouble_natAbs {n : Nat} (h : 2 ^ 53 < n) :
    ∃ nearest, (roundDouble n).natAbs = nearest * 2 ^ (n.log2 - 52) ∧
      nearest = if 2 ^ (n.log2 - 52) < 2 * (n % 2 ^ (n.log2 - 52)) ∨
          (2 * (n % 2 ^ (n.log2 - 52)) = 2 ^ (n.log2 - 52) ∧ n / 2 ^ (n.log2 - 52) % 2 = 1)
        then n / 2 ^ (n.log2 - 52) + 1 else n / 2 ^ (n.log2 - 52) := by
  refine ⟨_, ?_, rfl⟩
  have hsign : (n : Int).sign = 1 := Int.sign_eq_one_of_pos (by omega)
  simp only [roundDouble, Int.natAbs_natCast, gt_iff_lt]
  rw [if_neg (by omega), hsign, Int.one_mul, Int.natAbs_natCast]

theorem log2_bounds {n : Nat} (h : n ≠ 0) : 2 ^ n.log2 ≤ n ∧ n < 2 ^ (n.log2 + 1) :=
  ⟨Nat.log2_self_le h, Nat.lt_log2_self⟩

/-- The rounded number lies between the powers of two around the number. -/
theorem roundDouble_bounds {n : Nat} (h : 2 ^ 53 < n) : 2 ^ n.log2 ≤ (roundDouble n).natAbs ∧ (roundDouble n).natAbs ≤ 2 ^ (n.log2 + 1) := by
  obtain ⟨nearest, hround, hnearest⟩ := roundDouble_natAbs h
  obtain ⟨hlow, hhigh⟩ := log2_bounds (show n ≠ 0 by omega)
  have hlog : 53 ≤ n.log2 := (Nat.le_log2 (by omega)).mpr h.le
  have hpow : 2 ^ n.log2 = 2 ^ 52 * 2 ^ (n.log2 - 52) := by
    rw [← Nat.pow_add]
    congr 1
    omega
  have hpowSucc : 2 ^ (n.log2 + 1) = 2 ^ 53 * 2 ^ (n.log2 - 52) := by
    rw [← Nat.pow_add]
    congr 1
    omega
  have hq : 2 ^ 52 ≤ n / 2 ^ (n.log2 - 52) := (Nat.le_div_iff_mul_le (Nat.two_pow_pos _)).mpr (hpow ▸ hlow)
  have hq' : n / 2 ^ (n.log2 - 52) < 2 ^ 53 := (Nat.div_lt_iff_lt_mul (Nat.two_pow_pos _)).mpr (hpowSucc ▸ hhigh)
  have hle : 2 ^ 52 ≤ nearest ∧ nearest ≤ 2 ^ 53 := by
    rw [hnearest]
    split <;> omega
  rw [hround, hpow, hpowSucc]
  exact ⟨Nat.mul_le_mul_right _ hle.1, Nat.mul_le_mul_right _ hle.2⟩

/-- Rounding does not bring a number below `2 ^ 53`. -/
theorem le_numberOf {n number : Nat} (h : 2 ^ 53 ≤ n) (hnumber : numberOf n = some number) : 2 ^ 53 ≤ number := by
  unfold numberOf at hnumber
  dsimp only at hnumber
  split at hnumber
  · obtain rfl := Option.some.inj hnumber
    rcases Nat.eq_or_lt_of_le h with heq | hlt
    · rw [← heq, roundDouble_of_le (by omega), Int.natAbs_natCast]
    · have hlog : 53 ≤ n.log2 := (Nat.le_log2 (by omega)).mpr h
      exact (Nat.pow_le_pow_right (by omega) hlog).trans (roundDouble_bounds hlt).1
  · cases hnumber

/-- The indices that are read as infinity are those from half a unit below `2 ^ 1024` on. -/
theorem numberOf_eq_none_iff {n : Nat} : numberOf n = none ↔ 2 ^ 1024 ≤ n + 2 ^ 970 := by
  have hnone : numberOf n = none ↔ 2 ^ 1024 ≤ (roundDouble n).natAbs := by
    unfold numberOf
    dsimp only
    split <;> simp <;> omega
  rw [hnone]
  have h1023 : 2 ^ 1023 = 2 ^ 53 * 2 ^ 970 := by rw [← Nat.pow_add]
  have h1024 : 2 ^ 1024 = 2 ^ 54 * 2 ^ 970 := by rw [← Nat.pow_add]
  have h971 : 2 ^ 971 = 2 * 2 ^ 970 := by rw [← Nat.pow_succ']
  have hpos : 2 ^ 53 < 2 ^ 970 := Nat.pow_lt_pow_right (by omega) (by omega)
  rcases Nat.lt_or_ge (2 ^ 53) n with hlt | hle
  · obtain ⟨hlow, hhigh⟩ := log2_bounds (show n ≠ 0 by omega)
    obtain ⟨hround, hround'⟩ := roundDouble_bounds hlt
    rcases Nat.lt_trichotomy n.log2 1023 with hlog | hlog | hlog
    · have hpow : 2 ^ (n.log2 + 1) ≤ 2 ^ 1023 := Nat.pow_le_pow_right (by omega) (by omega)
      rw [h1023] at hpow
      rw [h1024]
      omega
    · obtain ⟨nearest, hvalue, hnearest⟩ := roundDouble_natAbs hlt
      have hdiv := Nat.div_add_mod n (2 ^ 971)
      have hmod := Nat.mod_lt n (Nat.two_pow_pos 971)
      rw [hlog] at hvalue hnearest hlow hhigh
      have hexp : 1023 - 52 = 971 := rfl
      have hexp' : 1023 + 1 = 1024 := rfl
      rw [hexp] at hvalue hnearest
      rw [hexp'] at hhigh
      rw [hvalue, h1024]
      rw [h971] at hdiv hmod hnearest ⊢
      rw [h1024] at hhigh
      rw [h1023] at hlow
      generalize 2 ^ 970 = u at hdiv hmod hnearest hhigh hlow hpos ⊢
      generalize n % (2 * u) = r at hdiv hmod hnearest
      generalize n / (2 * u) = q at hdiv hnearest
      have hq : q < 2 ^ 53 := by
        by_contra hnot
        have hmul := Nat.mul_le_mul_left (2 * u) (Nat.le_of_not_lt hnot)
        omega
      have hcases : q = 2 ^ 53 - 1 ∨ q < 2 ^ 53 - 1 := by omega
      rcases hcases with rfl | hsmall
      · -- the largest quotient: the remainder decides
        split at hnearest <;> rw [hnearest] <;> omega
      · have hle : nearest ≤ 2 ^ 53 - 1 := by
          rw [hnearest]
          split <;> omega
        have hmul := Nat.mul_le_mul_left (2 * u) (show q ≤ 2 ^ 53 - 2 by omega)
        have hmul' := Nat.mul_le_mul_right (2 * u) hle
        omega
    · have hpow : 2 ^ 1024 ≤ 2 ^ n.log2 := Nat.pow_le_pow_right (by omega) (by omega)
      omega
  · rw [roundDouble_of_le (by omega), Int.natAbs_natCast, h1024]
    omega

end number

section loop

variable {fields : ExtractionFields} {workspaceId : JsString} {lastIndex : Int}

/-- Up to a bound below `2 ^ 53` the loop visits every index. -/
theorem actionLoop_eq {n : Nat} (hn : n < 2 ^ 53 + 1) {k i : Nat} (hlast : lastIndex + 1 = n) (hi : i + k = n) {fuel : Nat} (hfuel : k < fuel)
    (actions : List DerivedActionDescriptor) : actionLoop fields workspaceId lastIndex fuel i actions =
      some (actions ++ (List.range' i k).filterMap (deriveAction fields workspaceId)) := by
  induction k generalizing i fuel actions with
  | zero =>
    cases fuel with
    | zero => omega
    | succ fuel => rw [actionLoop, if_neg (by omega), List.range'_zero, List.filterMap_nil, List.append_nil]
  | succ k ih =>
    cases fuel with
    | zero => omega
    | succ fuel =>
      have hnext : (numberPlus i 1).toNat = i + 1 := toNat_numberPlus_one (by omega)
      rw [actionLoop, if_pos (by omega), hnext, ih (by omega) (by omega), List.range'_succ, List.append_assoc]
      cases hderive : deriveAction fields workspaceId i with
      | none => rw [List.filterMap_cons_none hderive, Option.toList_none, List.nil_append]
      | some d => rw [List.filterMap_cons_some hderive, Option.toList_some, List.singleton_append]

/-- Past `2 ^ 53` the counter stands still, and the loop does not end. -/
theorem actionLoop_eq_none (hlast : 2 ^ 53 ≤ lastIndex) (fuel : Nat) {i : Nat} (hi : i ≤ 2 ^ 53) (actions : List DerivedActionDescriptor) :
    actionLoop fields workspaceId lastIndex fuel i actions = none := by
  induction fuel generalizing i actions with
  | zero => rfl
  | succ fuel ih =>
    have hnext : (numberPlus i 1).toNat ≤ 2 ^ 53 := by
      rcases Nat.eq_or_lt_of_le hi with rfl | hlt
      · decide +kernel
      · rw [toNat_numberPlus_one hlt]
        omega
    rw [actionLoop, if_pos (by omega)]
    exact ih hnext _

end loop

section spec

/-- A field states a text: not the sentinel, and not a blank one. -/
def Stated (fields : ExtractionFields) (key text : JsString) : Prop :=
  ∃ field, fields.get key = some field ∧ field.value = .str text ∧ text ≠ str "TBD" ∧ trim text ≠ []

/-- The action of an item. -/
def meetingAction (workspaceId title owner : JsString) : DerivedActionDescriptor where
  targetSystem := .todoist
  canonicalIdentity := [(str "workspace", workspaceId), (str "title", title)]
  operation := str "todoist.create"
  idempotencyIdentity := [(str "workspace", workspaceId), (str "title", title), (str "owner", owner)]
  payload := .obj [(str "title", .str title), (str "owner", .str owner)]
  approvalPolicy := str "auto"
  payloadHash := str "payload:todoist.create:" ++ workspaceId ++ str ":" ++ title ++ str ":" ++ owner
  preconditions := [str "not_exists"]

/-- One action for each index whose title and owner are both stated, in ascending order, and no other. -/
def EmitsEach (fields : ExtractionFields) (workspaceId : JsString) (actions : List DerivedActionDescriptor) : Prop :=
  ∃ items : List (Nat × JsString × JsString), items.Pairwise (fun a b => a.1 < b.1) ∧
    (∀ n title owner, (n, title, owner) ∈ items ↔ Stated fields (actionTitleKey n) title ∧ Stated fields (actionOwnerKey n) owner) ∧
    actions = items.map fun item => meetingAction workspaceId item.2.1 item.2.2

/-- The projection ends, and where it gives outputs they hold the action of each item. -/
def ProjectsActions (tables : SlugTables) (fields : ExtractionFields) (workspaceId : JsString) (noteExists : Bool) : Prop :=
  ∃ fuel result, projectMeeting tables fields workspaceId noteExists fuel = some result ∧
    ∀ mutation actions, result = .ok (mutation, actions) → EmitsEach fields workspaceId actions

/-- Every index is below `2 ^ 53`, but for some that are read as infinity and belong to no item. -/
def IndicesInRange (fields : ExtractionFields) : Prop :=
  (∀ key ∈ fields.keys, ∀ n, actionIndex key = some n → n < 2 ^ 53 ∨ 2 ^ 1024 ≤ n + 2 ^ 970) ∧
    ∀ n title owner, Stated fields (actionTitleKey n) title → Stated fields (actionOwnerKey n) owner → n < 2 ^ 53

variable {fields : ExtractionFields} {workspaceId : JsString}

theorem concreteString_eq_some_iff {key text : JsString} : concreteString (fields.get key) = some text ↔ Stated fields key text := by
  unfold concreteString Stated
  cases hget : fields.get key with
  | none => simp [isConcrete]
  | some field =>
    obtain ⟨value⟩ := field
    cases value with
    | str value =>
      simp only [isConcrete, isTbd, Option.any_some, Option.map_some, Option.some.injEq, Bool.not_not, decide_eq_true_eq]
      constructor
      · intro h
        split at h
        · cases h
        · next htbd =>
          split at h
          · cases h
          · next hblank =>
            obtain rfl := Option.some.inj h
            exact ⟨_, rfl, rfl, htbd, hblank⟩
      · rintro ⟨field, rfl, hvalue, htbd, hblank⟩
        obtain rfl := Json.str.inj hvalue
        rw [if_neg htbd, if_neg hblank]
    | _ => simp [isConcrete, isTbd]

/-- The item of an index, if it is stated. -/
def itemAt (fields : ExtractionFields) (n : Nat) : Option (Nat × JsString × JsString) :=
  (concreteString (fields.get (actionTitleKey n))).bind fun title =>
    (concreteString (fields.get (actionOwnerKey n))).map fun owner => (n, title, owner)

theorem itemAt_eq_some_iff {n m : Nat} {title owner : JsString} : itemAt fields n = some (m, title, owner) ↔
    m = n ∧ Stated fields (actionTitleKey n) title ∧ Stated fields (actionOwnerKey n) owner := by
  simp only [itemAt, Option.bind_eq_some_iff, Option.map_eq_some_iff, concreteString_eq_some_iff, Prod.mk.injEq]
  constructor
  · rintro ⟨t, ht, o, ho, rfl, rfl, rfl⟩
    exact ⟨rfl, ht, ho⟩
  · rintro ⟨rfl, ht, ho⟩
    exact ⟨title, ht, owner, ho, rfl, rfl, rfl⟩

theorem deriveAction_eq_map (n : Nat) :
    deriveAction fields workspaceId n = (itemAt fields n).map fun item => meetingAction workspaceId item.2.1 item.2.2 := by
  unfold deriveAction itemAt
  cases concreteString (fields.get (actionTitleKey n)) with
  | none => rfl
  | some title =>
    cases concreteString (fields.get (actionOwnerKey n)) with
    | none => rfl
    | some owner => rfl

/-- The keys of an item have its index. -/
theorem actionIndex_key (n : Nat) {field : JsString} (hfield : field = str ".title" ∨ field = str ".owner") :
    actionIndex (str "actionItems." ++ decimal n ++ field) = some n := by
  have hstrip : stripLit (str "actionItems.") (str "actionItems." ++ decimal n ++ field) = some (decimal n ++ field) :=
    Piece.stripLit_eq_some.mpr (List.append_assoc ..)
  have hdigits : ∀ c ∈ decimal n, Json.isDigit c = true := by
    intro c hc
    obtain ⟨hlow, hhigh⟩ := digit_of_mem_decimal hc
    simp [Json.isDigit, hlow, hhigh]
  have htake : (decimal n ++ field).takeWhile Json.isDigit = decimal n := by
    rw [List.takeWhile_append_of_pos hdigits]
    rcases hfield with rfl | rfl <;> exact List.append_nil _
  have hdrop : (decimal n ++ field).dropWhile Json.isDigit = field := by
    rw [List.dropWhile_append_of_pos hdigits]
    rcases hfield with rfl | rfl <;> rfl
  rw [actionIndex, hstrip, Option.bind_eq_bind, Option.bind_some, htake, hdrop, if_neg (decimal_ne_nil n), toNumber_decimal]
  rcases hfield with rfl | rfl <;> rfl

/-- Where the title of an item is stated, one of the keys has its index. -/
theorem exists_key_of_stated {n : Nat} {title : JsString} (h : Stated fields (actionTitleKey n) title) :
    ∃ key ∈ fields.keys, actionIndex key = some n := by
  obtain ⟨field, hget, -⟩ := h
  refine ⟨actionTitleKey n, Map.mem_keys_iff.mpr (by rw [hget]; rfl), actionIndex_key n (.inl rfl)⟩

/-- The scan ends at its start or at the number of an index, and no number is above. -/
theorem foldl_higher (indices : List Nat) (start : Int) :
    (start ≤ indices.foldl higher start ∧ ∀ n ∈ indices, ∀ number, numberOf n = some number → (number : Int) ≤ indices.foldl higher start) ∧
      (indices.foldl higher start = start ∨ ∃ n ∈ indices, ∃ number, numberOf n = some number ∧ indices.foldl higher start = number) := by
  induction indices generalizing start with
  | nil => exact ⟨⟨Int.le_refl _, fun n hn => absurd hn List.not_mem_nil⟩, .inl rfl⟩
  | cons m indices ih =>
    obtain ⟨⟨hstart, hall⟩, hreached⟩ := ih (higher start m)
    have hstep : start ≤ higher start m ∧ (∀ number, numberOf m = some number → (number : Int) ≤ higher start m) ∧
        (higher start m = start ∨ ∃ number, numberOf m = some number ∧ higher start m = number) := by
      unfold higher
      cases numberOf m with
      | none => exact ⟨Int.le_refl _, fun number h => absurd h (by simp), .inl rfl⟩
      | some number =>
        dsimp only
        split
        · next hgt =>
          refine ⟨by omega, fun number' h => ?_, .inr ⟨number, rfl, rfl⟩⟩
          rw [Option.some.inj h]
        · next hle =>
          refine ⟨Int.le_refl _, fun number' h => ?_, .inl rfl⟩
          rw [← Option.some.inj h]
          omega
    rw [List.foldl_cons]
    refine ⟨⟨hstep.1.trans hstart, fun n hn number hnumber => ?_⟩, ?_⟩
    · rcases List.mem_cons.mp hn with rfl | hn
      · exact (hstep.2.1 number hnumber).trans hstart
      · exact hall n hn number hnumber
    · rcases hreached with heq | ⟨n, hn, number, hnumber, heq⟩
      · rcases hstep.2.2 with hsame | ⟨number, hnumber, hsame⟩
        · exact .inl (heq.trans hsame)
        · exact .inr ⟨m, List.mem_cons_self .., number, hnumber, heq.trans hsame⟩
      · exact .inr ⟨n, List.mem_cons_of_mem _ hn, number, hnumber, heq⟩

/-- The number of each index of a key is at most the highest. -/
theorem le_highest {key : JsString} (hkey : key ∈ fields.keys) {n number : Nat} (hn : actionIndex key = some n)
    (hnumber : numberOf n = some number) : (number : Int) ≤ highestActionIndex fields :=
  (foldl_higher _ (-1)).1.2 n (List.mem_filterMap.mpr ⟨key, hkey, hn⟩) number hnumber

/-- The loop ends where no number of an index reaches `2 ^ 53`. -/
theorem highest_lt_iff : highestActionIndex fields < 2 ^ 53 ↔
    ∀ key ∈ fields.keys, ∀ n, actionIndex key = some n → n < 2 ^ 53 ∨ 2 ^ 1024 ≤ n + 2 ^ 970 := by
  constructor
  · intro h key hkey n hn
    by_contra hnot
    obtain ⟨hge, hfinite⟩ := not_or.mp hnot
    rw [← numberOf_eq_none_iff] at hfinite
    obtain ⟨number, hnumber⟩ := Option.ne_none_iff_exists'.mp hfinite
    have hle := le_highest hkey hn hnumber
    have hlow := le_numberOf (Nat.le_of_not_lt hge) hnumber
    omega
  · intro h
    rcases (foldl_higher (fields.keys.filterMap actionIndex) (-1)).2 with heq | ⟨n, hn, number, hnumber, heq⟩
    · rw [highestActionIndex, heq]
      decide
    · obtain ⟨key, hkey, hindex⟩ := List.mem_filterMap.mp hn
      rcases h key hkey n hindex with hlt | hinfinite
      · rw [numberOf_of_lt hlt] at hnumber
        rw [highestActionIndex, heq, ← Option.some.inj hnumber]
        omega
      · rw [numberOf_eq_none_iff.mpr hinfinite] at hnumber
        cases hnumber

theorem neg_one_le_highest : -1 ≤ highestActionIndex fields := (foldl_higher _ (-1)).1.1

/-- The items below a bound, in order. -/
def itemsBelow (fields : ExtractionFields) (n : Nat) : List (Nat × JsString × JsString) := (List.range n).filterMap (itemAt fields)

theorem mem_itemsBelow {n m : Nat} {title owner : JsString} : (m, title, owner) ∈ itemsBelow fields n ↔
    m < n ∧ Stated fields (actionTitleKey m) title ∧ Stated fields (actionOwnerKey m) owner := by
  simp only [itemsBelow, List.mem_filterMap, List.mem_range, itemAt_eq_some_iff]
  constructor
  · rintro ⟨i, hi, rfl, ht, ho⟩
    exact ⟨hi, ht, ho⟩
  · rintro ⟨hm, ht, ho⟩
    exact ⟨m, hm, rfl, ht, ho⟩

theorem itemsBelow_ascending (n : Nat) : (itemsBelow fields n).Pairwise fun a b => a.1 < b.1 := by
  unfold itemsBelow
  rw [List.pairwise_filterMap]
  refine List.pairwise_lt_range.imp ?_
  rintro i j hlt ⟨i', t, o⟩ hi ⟨j', t', o'⟩ hj
  obtain ⟨rfl, -⟩ := itemAt_eq_some_iff.mp hi
  obtain ⟨rfl, -⟩ := itemAt_eq_some_iff.mp hj
  exact hlt

theorem filterMap_deriveAction (n : Nat) : (List.range' 0 n).filterMap (deriveAction fields workspaceId) =
    (itemsBelow fields n).map fun item => meetingAction workspaceId item.2.1 item.2.2 := by
  unfold itemsBelow
  rw [List.map_filterMap, List.range_eq_range']
  congr 1
  funext n
  exact deriveAction_eq_map n

/-- Up to a highest index below `2 ^ 53` the loop gives the actions of the items up to it. -/
theorem actionLoop_items (h : highestActionIndex fields < 2 ^ 53) : ∃ n : Nat, highestActionIndex fields + 1 = n ∧
    ∀ fuel, n < fuel → actionLoop fields workspaceId (highestActionIndex fields) fuel 0 [] =
      some ((itemsBelow fields n).map fun item => meetingAction workspaceId item.2.1 item.2.2) := by
  have hneg : -1 ≤ highestActionIndex fields := neg_one_le_highest
  refine ⟨(highestActionIndex fields + 1).toNat, by omega, fun fuel hfuel => ?_⟩
  rw [actionLoop_eq (n := (highestActionIndex fields + 1).toNat) (by omega) (by omega) (Nat.zero_add _) hfuel, List.nil_append,
    filterMap_deriveAction]

/-- A loop that ends gives the same actions with more fuel. -/
theorem actionLoop_mono {lastIndex : Int} {fuel fuel' : Nat} (hfuel : fuel ≤ fuel') {i : Nat} {actions result : List DerivedActionDescriptor}
    (h : actionLoop fields workspaceId lastIndex fuel i actions = some result) :
    actionLoop fields workspaceId lastIndex fuel' i actions = some result := by
  induction fuel generalizing fuel' i actions with
  | zero => cases h
  | succ fuel ih =>
    cases fuel' with
    | zero => omega
    | succ fuel' =>
      rw [actionLoop] at h ⊢
      split at h
      · next hle =>
        rw [if_pos hle]
        exact ih (by omega) h
      · next hgt =>
        rw [if_neg hgt]
        exact h

theorem itemsBelow_nodup (n : Nat) : (itemsBelow fields n).Nodup :=
  (itemsBelow_ascending n).imp fun {a b} (hlt : a.1 < b.1) (heq : a = b) => Nat.lt_irrefl b.1 (heq ▸ hlt)

/-- No item is left where the items below a bound already give every action. -/
theorem lt_of_emitsEach {k : Nat} (h : EmitsEach fields workspaceId ((itemsBelow fields k).map fun item => meetingAction workspaceId item.2.1 item.2.2))
    {n : Nat} {title owner : JsString} (htitle : Stated fields (actionTitleKey n) title) (howner : Stated fields (actionOwnerKey n) owner) : n < k := by
  obtain ⟨items, -, hmem, heq⟩ := h
  by_contra hnot
  have hlen : (itemsBelow fields k).length = items.length := by
    have hlen := congrArg List.length heq
    rwa [List.length_map, List.length_map] at hlen
  have hnew : (n, title, owner) ∉ itemsBelow fields k := fun hin => hnot (mem_itemsBelow.mp hin).1
  have hsub : (n, title, owner) :: itemsBelow fields k ⊆ items := by
    rintro ⟨m, t, o⟩ hin
    rw [hmem]
    rcases List.mem_cons.mp hin with hhead | htail
    · cases hhead
      exact ⟨htitle, howner⟩
    · exact (mem_itemsBelow.mp htail).2
  have hle := ((itemsBelow_nodup k).cons hnew).subperm hsub |>.length_le
  rw [List.length_cons] at hle
  omega

/-- The projection ends with the action of every item if and only if no note is projected, or
    every index is in range. -/
theorem projectsActions_iff (tables : SlugTables) (fields : ExtractionFields) (workspaceId : JsString) (noteExists : Bool) :
    ProjectsActions tables fields workspaceId noteExists ↔
      (∃ refusal, projectMeetingNote tables fields workspaceId noteExists = .error refusal) ∨ IndicesInRange fields := by
  unfold ProjectsActions projectMeeting
  cases hnote : projectMeetingNote tables fields workspaceId noteExists with
  | error refusal =>
    refine ⟨fun _ => .inl ⟨refusal, rfl⟩, fun _ => ⟨0, _, rfl, fun mutation actions h => absurd h (by simp)⟩⟩
  | ok mutation =>
    constructor
    · rintro ⟨fuel, result, hloop, hresult⟩
      right
      obtain ⟨actions, hactions, rfl⟩ := Option.map_eq_some_iff.mp hloop
      have hlt : highestActionIndex fields < 2 ^ 53 := by
        by_contra hnot
        rw [actionLoop_eq_none (Int.not_lt.mp hnot) fuel (Nat.zero_le _)] at hactions
        cases hactions
      refine ⟨highest_lt_iff.mp hlt, fun n title owner htitle howner => ?_⟩
      obtain ⟨k, hk, hrun⟩ := @actionLoop_items fields workspaceId hlt
      have hmore := actionLoop_mono (Nat.le_max_left fuel (k + 1)) hactions
      rw [hrun _ (Nat.le_max_right fuel (k + 1))] at hmore
      obtain rfl := Option.some.inj hmore
      have hbound := lt_of_emitsEach (hresult mutation _ rfl) htitle howner
      omega
    · rintro (⟨refusal, h⟩ | ⟨hkeys, hitems⟩)
      · cases h
      · have hlt := highest_lt_iff.mpr hkeys
        obtain ⟨n, hn, hrun⟩ := @actionLoop_items fields workspaceId hlt
        refine ⟨n + 1, .ok (mutation, (itemsBelow fields n).map fun item => meetingAction workspaceId item.2.1 item.2.2), ?_, ?_⟩
        · rw [hrun (n + 1) (Nat.lt_succ_self n)]
          rfl
        · intro mutation' actions h
          obtain ⟨-, rfl⟩ := Prod.mk.inj (Except.ok.inj h)
          refine ⟨itemsBelow fields n, itemsBelow_ascending n, fun m title owner => ?_, rfl⟩
          rw [mem_itemsBelow]
          constructor
          · exact fun hin => hin.2
          · rintro ⟨htitle, howner⟩
            obtain ⟨key, hkey, hindex⟩ := exists_key_of_stated htitle
            have hle := le_highest hkey hindex (numberOf_of_lt (hitems m title owner htitle howner))
            exact ⟨by omega, htitle, howner⟩

/-- A meeting with one item, numbered where the counter of the loop cannot go. -/
def farItem : ExtractionFields := Map.ofList [(str "title", ⟨.str (str "Standup")⟩),
  (str "actionItems.9007199254740992.title", ⟨.str (str "Ship it")⟩),
  (str "actionItems.9007199254740992.owner", ⟨.str (str "Ada")⟩)]

theorem farItem_highest : highestActionIndex farItem = 2 ^ 53 := by
  decide +kernel

theorem farItem_note : ∃ mutation, projectMeetingNote asciiSlugs farItem (str "employer-work") false = .ok mutation :=
  ⟨_, rfl⟩

/-- Projecting the outputs of that meeting does not end. -/
theorem farItem_does_not_end : ¬ ∀ (tables : SlugTables) (fields : ExtractionFields) (workspaceId : JsString) (noteExists : Bool),
    ProjectsActions tables fields workspaceId noteExists := by
  intro h
  obtain ⟨fuel, result, hrun, -⟩ := h asciiSlugs farItem (str "employer-work") false
  obtain ⟨mutation, hnote⟩ := farItem_note
  have hloop := @actionLoop_eq_none farItem (str "employer-work") _ (Int.le_of_eq farItem_highest.symm) fuel 0
    (Nat.zero_le _) []
  unfold projectMeeting at hrun
  rw [hnote] at hrun
  dsimp only at hrun
  rw [hloop] at hrun
  cases hrun

end spec

end sow.workflows
