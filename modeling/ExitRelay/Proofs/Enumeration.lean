import ExitRelay.Proofs.Cursor
import Mathlib.Data.List.Induction

/-!
# Histories of listener sets

A listener set is what requests have made of an empty one.  Its members are the processors that
have been inserted and not been erased since, in the order in which they were last inserted, and
its cursor is on one of them unless there is none.  Going to the first member and advancing from
there names the members in that order, each once, and then names none and is back on the first.
`enumeration` says so for every history of requests.
-/

namespace ExitRelay.ListenerSet

/-- A request to a listener set. -/
inductive Request where
  | insert (v : Vpid)
  | erase (v : Vpid)
  | first
  | advance
  deriving DecidableEq, Repr

/-- The set after a request.  A request that is refused changes nothing. -/
def request (s : ListenerSet) : Request → ListenerSet
  | .insert v => (s.insert? v).getD s
  | .erase v => (s.erase? v).getD s
  | .first => s.first.2
  | .advance => s.advance.2

/-- What requests in turn make of an empty set. -/
def ofRequests (rs : List Request) : ListenerSet :=
  rs.foldl request {}

/-- The processors that a number of advances name in turn, and the set after them. -/
def advances : Nat → ListenerSet → List (Option Vpid) × ListenerSet
  | 0, s => ([], s)
  | n + 1, s =>
    let (v, t) := s.advance
    let (vs, u) := advances n t
    (v :: vs, u)

/-- The processor has been inserted and has not been erased since. -/
def Kept (rs : List Request) (v : Vpid) : Prop :=
  ∃ i : Nat, rs[i]? = some (.insert v) ∧ ∀ j, i < j → rs[j]? ≠ some (.erase v)

/-- The request at the position is the latest one that has inserted the processor: the set did
not refuse it, and refused every later one. -/
structure InsertedAt (rs : List Request) (v : Vpid) (i : Nat) : Prop where
  request : rs[i]? = some (.insert v)
  accepted : (ofRequests (rs.take i)).insert? v ≠ none
  latest : ∀ j, i < j → rs[j]? = some (.insert v) → (ofRequests (rs.take j)).insert? v = none

/-- The latest insertion of the first processor comes before the one of the second. -/
def Earlier (rs : List Request) (v w : Vpid) : Prop :=
  ∃ i j, InsertedAt rs v i ∧ InsertedAt rs w j ∧ i < j

/-- The set lists the processors that the history has left in it, in the order of their latest
insertions. -/
structure Chronicles (rs : List Request) (s : ListenerSet) : Prop where
  mem_iff : ∀ v, v ∈ s.members ↔ Kept rs v
  inserted : ∀ v ∈ s.members, ∃ i, InsertedAt rs v i
  pairwise : s.members.Pairwise (Earlier rs)

variable {s t : ListenerSet} {v w : Vpid} {vs : List Vpid} {rs : List Request}
  {r x : Request} {i j : Nat}

/-! ### Requests -/

theorem ofRequests_concat (rs : List Request) (r : Request) :
  ofRequests (rs ++ [r]) = (ofRequests rs).request r
  := List.foldl_concat ..

/-- A processor that is no member is listed last when it is inserted. -/
theorem members_request_insert (h : v ∉ s.members) :
  (s.request (.insert v)).members = s.members ++ [v]
  := by
  cases ht : s.insert? v with
  | none => exact absurd (insert?_eq_none_iff.mp ht) h
  | some t =>
      rw [request, ht]
      exact (members_of_insert? ht).2

theorem request_insert_of_mem (h : v ∈ s.members) :
  s.request (.insert v) = s
  := by
  rw [request, insert?_eq_none_iff.mpr h]
  rfl

theorem members_request_erase (s : ListenerSet) (v : Vpid) :
  (s.request (.erase v)).members = s.members.erase v
  := by
  rw [request]
  cases ht : s.erase? v with
  | none => exact (List.erase_of_not_mem (erase?_eq_none_iff.mp ht)).symm
  | some t => exact (members_of_erase? ht).2

/-- Every request keeps a set sound. -/
theorem Sound.request (h : s.Sound) (r : Request) :
  (s.request r).Sound
  := by
  cases r with
  | insert v =>
      rw [ListenerSet.request]
      cases ht : s.insert? v with
      | none => exact h
      | some t => exact h.insert? ht
  | erase v =>
      rw [ListenerSet.request]
      cases ht : s.erase? v with
      | none => exact h
      | some t => exact h.erase? ht
  | first => exact sound_rewind h.nodup
  | advance => exact h.advance

/-- Whatever requests there have been, the set is sound. -/
theorem sound_ofRequests (rs : List Request) :
  (ofRequests rs).Sound
  := by
  induction rs using List.reverseRecOn with
  | nil => exact sound_empty
  | append_singleton rs r ih =>
      rw [ofRequests_concat]
      exact ih.request r

/-! ### Histories -/

theorem getElem?_concat_eq_some_iff :
  (rs ++ [r])[i]? = some x ↔ rs[i]? = some x ∨ i = rs.length ∧ r = x
  := by
  grind

theorem lt_length_of_getElem? (h : rs[i]? = some x) :
  i < rs.length
  := (List.getElem?_eq_some_iff.mp h).1

/-- One more request inserts a processor, or keeps it unless it erases it. -/
theorem kept_concat :
  Kept (rs ++ [r]) v ↔ r = .insert v ∨ r ≠ .erase v ∧ Kept rs v
  := by
  simp only [Kept, getElem?_concat_eq_some_iff, ne_eq, not_or, not_and]
  constructor
  · rintro ⟨i, hi | ⟨-, hr⟩, hj⟩
    · right
      have hlt := lt_length_of_getElem? hi
      exact ⟨(hj rs.length hlt).2 rfl, i, hi, fun j hij => (hj j hij).1⟩
    · exact .inl hr
  · rintro (hr | ⟨hr, i, hi, hj⟩)
    · refine ⟨rs.length, .inr ⟨rfl, hr⟩, fun j hlt => ⟨?_, ?_⟩⟩
      · rw [List.getElem?_eq_none (Nat.le_of_lt hlt)]
        exact (Option.some_ne_none _).symm
      · intro he
        exact absurd he (Nat.ne_of_gt hlt)
    · exact ⟨i, .inl hi, fun j hij => ⟨hj j hij, fun _ => hr⟩⟩

/-- A later request that does not insert the processor leaves its latest insertion as it is. -/
theorem InsertedAt.concat (h : InsertedAt rs v i)
    (hr : r = .insert v → (ofRequests rs).insert? v = none) :
  InsertedAt (rs ++ [r]) v i
  := by
  have hlt := lt_length_of_getElem? h.request
  constructor
  · exact getElem?_concat_eq_some_iff.mpr (.inl h.request)
  · rw [List.take_append_of_le_length (Nat.le_of_lt hlt)]
    exact h.accepted
  · intro j hij hj
    rcases getElem?_concat_eq_some_iff.mp hj with hj | ⟨rfl, hr'⟩
    · rw [List.take_append_of_le_length (Nat.le_of_lt (lt_length_of_getElem? hj))]
      exact h.latest j hij hj
    · rw [List.take_left']
      · exact hr hr'
      · rfl

theorem insertedAt_length (h : v ∉ (ofRequests rs).members) :
  InsertedAt (rs ++ [.insert v]) v rs.length
  := by
  constructor
  · exact getElem?_concat_eq_some_iff.mpr (.inr ⟨rfl, rfl⟩)
  · rw [List.take_left']
    · exact mt insert?_eq_none_iff.mp h
    · rfl
  · intro j hlt hj
    rcases getElem?_concat_eq_some_iff.mp hj with hj | ⟨rfl, -⟩
    · exact absurd (lt_length_of_getElem? hj) (Nat.lt_asymm hlt)
    · exact absurd hlt (Nat.lt_irrefl _)

/-- A request that lists nobody anew, and takes out only whom it erases, tells of the set that it
leaves. -/
theorem Chronicles.concat_of_sublist (h : Chronicles rs (ofRequests rs))
    (hr : ∀ v, r = .insert v → v ∈ (ofRequests rs).members)
    (hsub : t.members.Sublist (ofRequests rs).members)
    (hmem : ∀ v ∈ (ofRequests rs).members, v ∈ t.members ↔ r ≠ .erase v) :
  Chronicles (rs ++ [r]) t
  := by
  have hins : ∀ {v i}, InsertedAt rs v i → InsertedAt (rs ++ [r]) v i :=
    fun hi => hi.concat fun hv => insert?_eq_none_iff.mpr (hr _ hv)
  constructor
  · intro v
    rw [kept_concat, ← h.mem_iff]
    constructor
    · intro hv
      have hs := hsub.subset hv
      exact .inr ⟨(hmem v hs).mp hv, hs⟩
    · rintro (rfl | ⟨hv, hs⟩)
      · exact (hmem v (hr v rfl)).mpr Request.noConfusion
      · exact (hmem v hs).mpr hv
  · intro v hv
    obtain ⟨i, hi⟩ := h.inserted v (hsub.subset hv)
    exact ⟨i, hins hi⟩
  · apply (h.pairwise.sublist hsub).imp
    rintro v w ⟨i, j, hi, hj, hij⟩
    exact ⟨i, j, hins hi, hins hj, hij⟩

/-- A request that inserts a processor lists it behind the others. -/
theorem Chronicles.concat_insert (h : Chronicles rs (ofRequests rs))
    (hv : v ∉ (ofRequests rs).members) (ht : t.members = (ofRequests rs).members ++ [v]) :
  Chronicles (rs ++ [.insert v]) t
  := by
  have hins : ∀ w ∈ (ofRequests rs).members, ∀ {i}, InsertedAt rs w i →
      InsertedAt (rs ++ [.insert v]) w i := by
    intro w hw i hi
    apply hi.concat
    intro hvw
    rw [Request.insert.inj hvw] at hv
    exact absurd hw hv
  have hlast := insertedAt_length hv
  constructor
  · intro w
    have hne : Request.insert v ≠ .erase w := Request.noConfusion
    rw [ht, List.mem_append, List.mem_singleton, h.mem_iff, kept_concat, Request.insert.injEq,
      and_iff_right hne, or_comm, eq_comm]
  · intro w hw
    rw [ht, List.mem_append, List.mem_singleton] at hw
    rcases hw with hw | rfl
    · obtain ⟨i, hi⟩ := h.inserted w hw
      exact ⟨i, hins w hw hi⟩
    · exact ⟨_, hlast⟩
  · rw [ht, List.pairwise_append]
    refine ⟨?_, List.pairwise_singleton _ v, ?_⟩
    · apply h.pairwise.imp_of_mem
      rintro w x hw hx ⟨i, j, hi, hj, hij⟩
      exact ⟨i, j, hins w hw hi, hins x hx hj, hij⟩
    · intro w hw x hx
      obtain rfl := List.mem_singleton.mp hx
      obtain ⟨i, hi⟩ := h.inserted w hw
      exact ⟨i, _, hins w hw hi, hlast, lt_length_of_getElem? hi.request⟩

/-- A request that leaves the members as they are tells of them. -/
theorem Chronicles.concat_of_members (h : Chronicles rs (ofRequests rs))
    (hr : ∀ v, r = .insert v → v ∈ (ofRequests rs).members) (he : ∀ v, r ≠ .erase v)
    (ht : t.members = (ofRequests rs).members) :
  Chronicles (rs ++ [r]) t
  := by
  apply h.concat_of_sublist hr
  · rw [ht]
  · intro v hv
    rw [ht]
    exact iff_of_true hv (he v)

/-- A history tells of the set that it makes of an empty one. -/
theorem chronicles_ofRequests (rs : List Request) :
  Chronicles rs (ofRequests rs)
  := by
  induction rs using List.reverseRecOn with
  | nil =>
      constructor
      · intro v
        refine iff_of_false List.not_mem_nil ?_
        rintro ⟨i, hi, -⟩
        exact absurd hi (Option.some_ne_none _).symm
      · intro v hv
        exact absurd hv List.not_mem_nil
      · exact .nil
  | append_singleton rs r ih =>
      rw [ofRequests_concat]
      cases r with
      | insert v =>
          by_cases hv : v ∈ (ofRequests rs).members
          · rw [request_insert_of_mem hv]
            apply ih.concat_of_members _ (fun _ => Request.noConfusion) rfl
            intro w hw
            rw [← Request.insert.inj hw]
            exact hv
          · exact ih.concat_insert hv (members_request_insert hv)
      | erase v =>
          apply ih.concat_of_sublist (fun _ => Request.noConfusion)
          · rw [members_request_erase]
            exact List.erase_sublist
          · intro w hw
            rw [members_request_erase, (sound_ofRequests rs).nodup.mem_erase_iff, ne_comm, ne_eq,
              ne_eq, Request.erase.injEq]
            exact and_iff_left hw
      | first =>
          exact ih.concat_of_members (fun _ => Request.noConfusion)
            (fun _ => Request.noConfusion) (members_first _)
      | advance =>
          exact ih.concat_of_members (fun _ => Request.noConfusion)
            (fun _ => Request.noConfusion) (members_advance _)

theorem InsertedAt.unique (hi : InsertedAt rs v i) (hj : InsertedAt rs v j) :
  i = j
  := by
  rcases Nat.lt_trichotomy i j with hlt | heq | hlt
  · exact absurd (hi.latest j hlt hj.request) hj.accepted
  · exact heq
  · exact absurd (hj.latest i hlt hi.request) hi.accepted

theorem Earlier.asymm (h : Earlier rs v w) :
  ¬ Earlier rs w v
  := by
  rintro ⟨k, l, hk, hl, hkl⟩
  obtain ⟨i, j, hi, hj, hij⟩ := h
  rw [hi.unique hl, hj.unique hk] at hij
  exact Nat.lt_asymm hij hkl

/-- A history leaves no choice of the members and of their order. -/
theorem Chronicles.members_eq (hs : Chronicles rs s) (ht : Chronicles rs t) :
  s.members = t.members
  := by
  have hnodup : ∀ {u : ListenerSet}, Chronicles rs u → u.members.Nodup := by
    intro u hu
    apply hu.pairwise.imp
    rintro v w h rfl
    exact h.asymm h
  apply List.Perm.eq_of_pairwise _ hs.pairwise ht.pairwise
  · rw [List.perm_ext_iff_of_nodup (hnodup hs) (hnodup ht)]
    intro v
    rw [hs.mem_iff, ht.mem_iff]
  · intro v w _ _ h h'
    exact absurd h' h.asymm

/-! ### Rounds -/

/-- Advancing goes to the member behind the cursor. -/
theorem advance_of_getElem? (h : s.members[s.following]? = some v) :
  s.advance = (some v, { s with cursor := some s.following })
  := by
  rw [ListenerSet.advance, h]

/-- Behind the last member there is nobody to go to. -/
theorem advance_of_length_le (h : s.members.length ≤ s.following) :
  s.advance = (none, s.rewind)
  := by
  rw [ListenerSet.advance, List.getElem?_eq_none h]

theorem following_of_cursor (h : s.cursor = some i) :
  s.following = i + 1
  := by
  rw [following, h]

theorem advances_succ (s : ListenerSet) (n : Nat) :
  s.advances (n + 1) = (s.advance.1 :: (s.advance.2.advances n).1, (s.advance.2.advances n).2)
  := rfl

/-- Advancing from a member names those behind it in turn and comes to the last one. -/
theorem advances_eq (behind : List Vpid) :
    ∀ {s : ListenerSet} {v : Vpid} (before : List Vpid),
      s.members = before ++ v :: behind → s.cursor = some before.length →
      s.advances behind.length =
        (behind.map some, { s with cursor := some (before.length + behind.length) })
  := by
  induction behind with
  | nil =>
      intro s v before _ hc
      rw [List.length_nil, Nat.add_zero, ← hc]
      rfl
  | cons w behind ih =>
      intro s v before hm hc
      rw [List.append_cons] at hm
      have hlen : (before ++ [v]).length = before.length + 1 := List.length_append
      have hw : s.members[s.following]? = some w := by
        rw [following_of_cursor hc, ← hlen, hm, List.getElem?_append_right (Nat.le_refl _),
          Nat.sub_self, List.getElem?_cons_zero]
      rw [List.length_cons, advances_succ, advance_of_getElem? hw]
      rw [ih (s := { s with cursor := some s.following }) _ hm
        (by rw [hlen, following_of_cursor hc])]
      rw [hlen, List.map_cons, Nat.add_assoc, Nat.add_comm 1]

/-- Going to the first of some members and advancing from it names them in turn.  Then nobody is
left to be named, and the cursor goes back to the first. -/
theorem round (h : s.members = v :: vs) :
  s.first.1 = some v ∧ (s.first.2.advances vs.length).1 = vs.map some ∧
    (s.first.2.advances vs.length).2.advance = (none, s.rewind) ∧ s.rewind.cursor = some 0
  := by
  have hc : s.rewind.cursor = some 0 := by
    rw [rewind, h]
    rfl
  have hadv : s.first.2.advances vs.length =
      (vs.map some, { s.rewind with cursor := some (([] : List Vpid).length + vs.length) }) :=
    advances_eq vs [] h hc
  rw [hadv]
  refine ⟨?_, rfl, ?_, hc⟩
  · rw [fst_first, h, List.head?_cons]
  · apply advance_of_length_le
    apply Nat.le_of_eq
    rw [following_of_cursor rfl, members_rewind, h, List.length_nil, Nat.zero_add,
      List.length_cons]

/-- Whatever requests a set that was empty has been through, its members are those that the
requests have left in it, in the order of their latest insertions and each listed once.  Its
cursor is on one of them, unless there is none, and a round names them all in that order. -/
theorem enumeration (rs : List Request) :
  let s := ofRequests rs
  s.Sound ∧ Chronicles rs s ∧
    (∀ i, s.cursor = some i → ∃ h : i < s.members.length, s.current = some s.members[i]) ∧
    ∀ v vs, s.members = v :: vs →
      s.first.1 = some v ∧ (s.first.2.advances vs.length).1 = vs.map some ∧
        (s.first.2.advances vs.length).2.advance = (none, s.rewind) ∧ s.rewind.cursor = some 0
  := by
  intro s
  have hs : s.Sound := sound_ofRequests rs
  refine ⟨hs, chronicles_ofRequests rs, ?_, fun v vs h => round h⟩
  intro i hi
  have hlt := hs.cursor_lt i hi
  use hlt
  rw [current, hi, Option.bind_some, List.getElem?_eq_getElem hlt]

/-- Of the processors 7 and 3, 7 is erased and inserted anew, so a round comes to 3 first. -/
theorem enumeration_of_reinserted :
  let s := ofRequests [.insert 7, .insert 3, .erase 7, .advance, .insert 7]
  s.Sound ∧ s.members = [3, 7] ∧ s.first.1 = some 3 ∧ (s.first.2.advances 1).1 = [some 7] ∧
    (s.first.2.advances 1).2.advance.1 = none
  := by
  intro s
  obtain ⟨hs, -, -, hround⟩ :=
    enumeration [.insert 7, .insert 3, .erase 7, .advance, .insert 7]
  have hm : s.members = [3, 7] := by decide
  obtain ⟨hfirst, hadvances, hlast, -⟩ := hround 3 [7] hm
  refine ⟨hs, hm, hfirst, hadvances, ?_⟩
  exact congrArg Prod.fst hlast

end ExitRelay.ListenerSet
