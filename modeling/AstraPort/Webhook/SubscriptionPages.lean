import AstraPort.Pagination.Pages
import AstraPort.Webhook.SubscriptionCalls

/- The pages of a user's subscriptions: one sorted list, cut by a page size. -/
namespace AstraPort.Webhook.SubscriptionService
open Pagination

/-- The query for the page at an index. -/
def pageQuery {limit : Nat} (positive : 1 ≤ limit) (sortBy : Option String)
    (sortOrder : Option SortOrder) (index : Nat) : PaginationQuery where
  page := some (index + 1)
  limit := some limit
  sortBy := sortBy
  sortOrder := sortOrder
  page_min := fun _ asked => Option.some.inj asked ▸ Nat.le_add_left 1 index
  limit_min := fun _ asked => Option.some.inj asked ▸ positive

/-- All subscriptions of the user in the order asked for. -/
def sortedBy (collation : Collation) (service : SubscriptionService) (userId : String)
    (sortBy : Option String) (sortOrder : Option SortOrder) : List SubscriptionEntity :=
  stableSort (compareBy collation (sortBy.getD "createdAt") (sortOrder.getD .desc))
    (service.ownedBy userId)

section Order
variable (collation : Collation)

/- Turned round or not, the comparison of two subscriptions stays a consistent one. -/
theorem compareBy_lawful (sortBy : String) (sortOrder : SortOrder) :
    Std.TransCmp (compareBy collation sortBy sortOrder) := by
  have lawful := collation.lawful
  cases sortOrder with
  | asc =>
    exact {
      eq_swap := fun {a b} => lawful.eq_swap
      isLE_trans := fun {a b c} first second => lawful.isLE_trans first second }
  | desc =>
    have turned (a b : SubscriptionEntity) : compareBy collation sortBy .desc a b =
        collation.compare (sortText sortBy b) (sortText sortBy a) := lawful.eq_swap.symm
    exact {
      eq_swap := fun {a b} => by
        rw [turned, turned]
        exact lawful.eq_swap
      isLE_trans := fun {a b c} first second => by
        rw [turned] at first second ⊢
        exact lawful.isLE_trans second first }

theorem sortedBy_perm (service : SubscriptionService) (userId : String) (sortBy : Option String)
    (sortOrder : Option SortOrder) :
    (sortedBy collation service userId sortBy sortOrder).Perm (service.ownedBy userId) :=
  stableSort_perm _ _

theorem sortedBy_sorted (service : SubscriptionService) (userId : String) (sortBy : Option String)
    (sortOrder : Option SortOrder) :
    (sortedBy collation service userId sortBy sortOrder).Pairwise fun a b =>
      (compareBy collation (sortBy.getD "createdAt") (sortOrder.getD .desc) a b).isLE = true := by
  have lawful := compareBy_lawful collation (sortBy.getD "createdAt") (sortOrder.getD .desc)
  exact stableSort_sorted _ _

/- A page is the slice of the sorted list that its index names. -/
theorem listSubscriptions_page (service : SubscriptionService) (userId : String)
    {limit : Nat} (positive : 1 ≤ limit) (sortBy : Option String) (sortOrder : Option SortOrder)
    (index : Nat) :
    service.listSubscriptions collation userId (some (pageQuery positive sortBy sortOrder index)) =
      offsetPage (sortedBy collation service userId sortBy sortOrder) limit index := by
  have length := (sortedBy_perm collation service userId sortBy sortOrder).length_eq
  rw [offsetPage, length, ← slice_page]
  rfl

end Order

/-- For any state, user, page size and order, the pages of the user's subscriptions partition the
sorted list of them. -/
theorem subscription_pages_partition (collation : Collation) (service : SubscriptionService)
    (userId : String) {limit : Nat} (positive : 1 ≤ limit) (sortBy : Option String)
    (sortOrder : Option SortOrder) :
    (sortedBy collation service userId sortBy sortOrder).Perm (service.ownedBy userId) ∧
      ((sortedBy collation service userId sortBy sortOrder).Pairwise fun a b =>
        (compareBy collation (sortBy.getD "createdAt") (sortOrder.getD .desc) a b).isLE = true) ∧
      Partition (sortedBy collation service userId sortBy sortOrder) limit fun index =>
        service.listSubscriptions collation userId
          (some (pageQuery positive sortBy sortOrder index)) := by
  refine ⟨sortedBy_perm collation service userId sortBy sortOrder,
    sortedBy_sorted collation service userId sortBy sortOrder, ?_⟩
  have pages : (fun index => service.listSubscriptions collation userId
      (some (pageQuery positive sortBy sortOrder index))) =
      offsetPage (sortedBy collation service userId sortBy sortOrder) limit := by
    funext index
    exact listSubscriptions_page collation service userId positive sortBy sortOrder index
  rw [pages]
  exact offsetPage_partition _ positive

/-- Three subscriptions, two of them alice's. -/
def threeSubscriptions : SubscriptionService :=
  let dto (name : String) : CreateSubscriptionDto :=
    ⟨name, ⟨["asset.added"], none, []⟩, none, none, none⟩
  let first := (initial.createSubscription "alice" (dto "b") "s1" 0).1
  let second := (first.createSubscription "bob" (dto "x") "s2" 1).1
  (second.createSubscription "alice" (dto "a") "s3" 2).1

/- With one subscription to a page, alice's second page has no page after it. -/
theorem pages_of_two_subscriptions : ∃ collation : Collation,
    (threeSubscriptions.listSubscriptions collation "alice"
      (some (pageQuery (le_refl 1) (some "name") (some .asc) 1))).pageMeta.hasNext = false ∧
    (threeSubscriptions.listSubscriptions collation "alice"
      (some (pageQuery (le_refl 1) (some "name") (some .asc) 1))).pageMeta.hasPrevious = true := by
  let collation : Collation := ⟨compare, inferInstance⟩
  have pages := (subscription_pages_partition collation threeSubscriptions "alice" (le_refl 1)
    (some "name") (some .asc)).2.2
  refine ⟨collation, ?_, (pages.previous 1).mpr (by decide)⟩
  rw [← Bool.not_eq_true, pages.next 1, not_not]
  exact pages.beyond 2 (by decide +kernel)

end AstraPort.Webhook.SubscriptionService
