import BarberHub.System.Commits

/-!
# Who decides whether a barber works in a shop

`update_barber` and `deactivate_barber` both write `barbers.is_active`; the
second asks for the owner of the shop, the first lets the barber in, too.  In
any interleaving of everything, the column changes through a request of the
owner or of an admin, as long as no barber sends another value for his own row
than it has.
-/

namespace BarberHub

open KeyedTable ReadCommitted Program Pool

variable {ι : Type} [DecidableEq ι]

/-- The work is a request of the user to edit or remove the barber. -/
def Work.EditsBarber (work : Work) (user : User) (barberId : Uuid) : Prop :=
  (∃ payload now, work = .management (.updateBarber user barberId payload) now) ∨
    ∃ now, work = .management (.deactivateBarber user barberId) now

/-- At every step of the run that changes `is_active` of a barber's row, the
step is one of a request by the owner of the barber's shop or by an admin. -/
def OwnersDecide (env : Env) (works : ι → Work) (db : Database)
    (schedule : List ι) : Prop :=
  ∀ started j, started ++ [j] <+: schedule →
    let s := ((workPool env works db).exec started).committed
    let s' := ((workPool env works db).exec (started ++ [j])).committed
    ∀ barberId row row', s.barber? barberId = some row →
      s'.barber? barberId = some row' → row'.isActive ≠ row.isActive →
      ∃ user, (works j).EditsBarber user barberId ∧ s.ManagedBy barberId user

/-- If the work is an update of a barber by the barber's own account, which
does not manage the shop, it sends no other `is_active` than the row has. -/
def Work.LeavesActive (work : Work) (s : Database) : Prop :=
  ∀ user barberId payload now row value,
    work = .management (.updateBarber user barberId payload) now →
    s.barber? barberId = some row → row.userId = user.id →
    ¬ s.ManagedBy barberId user → payload.isActive = some (some value) →
    value = row.isActive

/-! ## One commit -/

section

variable {env : Env} {s s' : Database} {work : Work} {barberId : Uuid}
  {row row' : Barber}

/-- A table of barbers that only grows keeps the rows it had. -/
theorem isActive_of_append
    {added : List Barber} (hbarbers : s'.barbers = s.barbers ++ added)
    (hrow : s.barber? barberId = some row)
    (hrow' : s'.barber? barberId = some row') :
    row'.isActive = row.isActive := by
  have hsame : s'.barber? barberId = some row := by
    rw [Database.barber?, hbarbers]
    exact lookup_append_of_some hrow
  rw [hsame] at hrow'
  rw [← Option.some.inj hrow']

theorem isActive_of_eq
    (hbarbers : s'.barbers = s.barbers)
    (hrow : s.barber? barberId = some row)
    (hrow' : s'.barber? barberId = some row') :
    row'.isActive = row.isActive :=
  isActive_of_append (hbarbers.trans (List.append_nil _).symm) hrow hrow'

/-- An UPDATE that changes the column has sent the value. -/
theorem isActive_sent_of_flushBarber
    {id : Uuid} {payload : BarberUpdate} {loaded : Barber}
    (hflush : flushBarber id (payload.changes loaded) s = .ok s')
    (hrow : s.barber? barberId = some row)
    (hrow' : s'.barber? barberId = some row')
    (hne : row'.isActive ≠ row.isActive) :
    barberId = id ∧ payload.isActive = some (some row'.isActive) := by
  rcases (flushBarber_eq_ok hflush).2 barberId row' hrow' with hsame | hchanged
  · rw [hrow] at hsame
    exact absurd (congrArg Barber.isActive (Option.some.inj hsame)).symm hne
  · obtain ⟨rfl, old, hold, happly⟩ := hchanged
    rw [hrow] at hold
    obtain rfl := Option.some.inj hold
    obtain ⟨-, -, -, hcolumn⟩ := BarberUpdate.apply_eq_ok happly
    rcases Sent.column_eq_ok hcolumn with hkept | hsent
    · exact absurd hkept hne
    · exact ⟨rfl, Sent.sent_of_changed hsent⟩

/-- A commit that changes the column comes from who manages the shop, unless
the barber has sent another value. -/
theorem WorkCommit.edited_by_manager
    (h : WorkCommit env s s' work) (hleaves : work.LeavesActive s)
    (hrow : s.barber? barberId = some row)
    (hrow' : s'.barber? barberId = some row')
    (hne : row'.isActive ≠ row.isActive) :
    ∃ user, work.EditsBarber user barberId ∧ s.ManagedBy barberId user := by
  cases h with
  | booked row _ hinsert =>
      obtain ⟨rfl, -, -⟩ := insertAppointment_eq_ok hinsert
      exact absurd (isActive_of_eq rfl hrow hrow') hne
  | rebooked id u hupdate =>
      obtain rfl := updateAppointment_eq_ok hupdate
      exact absurd (isActive_of_eq rfl hrow hrow') hne
  | expired stale hupdate =>
      have hframe := congrArg Database.barbers (expired_frame hupdate)
      exact absurd (isActive_of_eq hframe hrow hrow') hne
  | notified task hqueue =>
      have hframe := congrArg Database.barbers hqueue
      exact absurd (isActive_of_eq hframe hrow hrow') hne
  | updatedBarber user id payload now loaded hmay hflush =>
      obtain ⟨rfl, hsent⟩ :=
        isActive_sent_of_flushBarber hflush hrow hrow' hne
      refine ⟨user, Or.inl ⟨payload, now, rfl⟩, ?_⟩
      by_contra hnot
      rcases hmay with hmanaged | ⟨shopId, barber, hbarber, huser, -⟩
      · exact hnot hmanaged
      · rw [hrow] at hbarber
        obtain rfl := Option.some.inj hbarber
        exact hne (hleaves user barberId payload now row _ rfl hrow huser hnot
          hsent)
  | deactivatedBarber user id now u hmay hflush =>
      rcases (flushBarber_eq_ok hflush).2 barberId row' hrow' with hsame | hedited
      · rw [hrow] at hsame
        exact absurd (congrArg Barber.isActive (Option.some.inj hsame)).symm hne
      · obtain ⟨rfl, -⟩ := hedited
        exact ⟨user, Or.inr ⟨now, rfl⟩, hmay⟩
  | editedService id u hflush =>
      have hframe := congrArg Database.barbers (flushService_eq_ok hflush).1
      exact absurd (isActive_of_eq hframe hrow hrow') hne
  | editedShop id u hflush =>
      have hframe := congrArg Database.barbers (flushShop_eq_ok hflush).1
      exact absurd (isActive_of_eq hframe hrow hrow') hne
  | setServices id removed added _ hflush =>
      have hframe :=
        congrArg Database.barbers (flushBarberServices_eq_ok hflush).1
      exact absurd (isActive_of_eq hframe hrow hrow') hne
  | createdShop shop hinsert =>
      have hframe := congrArg Database.barbers (insertShop_eq_ok hinsert)
      exact absurd (isActive_of_eq hframe hrow hrow') hne
  | createdService service hinsert =>
      have hframe := congrArg Database.barbers (insertService_eq_ok hinsert).1
      exact absurd (isActive_of_eq hframe hrow hrow') hne
  | addedBarber barber account hflush =>
      have hframe := congrArg Database.barbers (flushNewBarber_eq_ok hflush).1
      exact absurd (isActive_of_append hframe hrow hrow') hne
  | beside h =>
      obtain ⟨f, hf, hlookup⟩ := h.barber?_eq
      rw [hlookup, hrow] at hrow'
      obtain rfl := Option.some.inj hrow'
      exact absurd (hf row).2.2 hne

end

/-! ## Every interleaving -/

/-- In every interleaving of everything in which no barber sends another
`is_active` for his own row than it has, whether a barber works in a shop is
decided by the owner of the shop and by admins. -/
theorem ownersDecide_of_leavesActive
    (env : Env) (works : ι → Work) (db : Database) (schedule : List ι)
    (hleaves : ∀ started j, started ++ [j] <+: schedule →
      (works j).LeavesActive ((workPool env works db).exec started).committed) :
    OwnersDecide env works db schedule := by
  intro started j hprefix s s' barberId row row' hrow hrow' hne
  rcases workPool_step env works db started j with hsame | hcommit
  · have hbarbers : s'.barbers = s.barbers := congrArg Database.barbers hsame
    exact absurd (isActive_of_eq hbarbers hrow hrow') hne
  · exact hcommit.edited_by_manager (hleaves started j hprefix) hrow hrow' hne

/-- The barber edits his biography, and an admin removes him. -/
def bioAndRemoval : Bool → Work
  | true => .management (.updateBarber Sample.stylist 20
      { bio := some (some "Fades") }) (Sample.clock 8 0)
  | false => .management (.updateBarber Sample.admin 20
      { isActive := some (some false) }) (Sample.clock 8 0)

theorem ownersDecide_of_leavesActive_removal :
    OwnersDecide Sample.env bioAndRemoval Sample.bookedDb
      [true, false, true, false] := by
  apply ownersDecide_of_leavesActive
  intro started j _ user barberId payload now row value hwork _ _ hnot hsent
  cases j with
  | true =>
      cases hwork
      simp at hsent
  | false =>
      cases hwork
      exact absurd (Or.inl rfl) hnot

/-- A barber with a booking switches himself off. -/
def ownSwitch : Unit → Work := fun _ =>
  .management (.updateBarber Sample.stylist 20
    { isActive := some (some false) }) (Sample.clock 8 0)

theorem not_ownersDecide_ownSwitch :
    ¬ OwnersDecide Sample.env ownSwitch Sample.bookedDb [(), ()] := by
  intro h
  obtain ⟨user, hedits, hmanaged⟩ := h [()] () (List.prefix_refl _) 20
    Sample.barber { Sample.barber with isActive := false } rfl rfl (by decide)
  obtain rfl : user = Sample.stylist := by
    rcases hedits with ⟨payload, now, hwork⟩ | ⟨now, hwork⟩
    · cases hwork
      rfl
    · cases hwork
  rcases hmanaged with hadmin | ⟨userId, shopId, hworks, howned⟩
  · simp [Sample.stylist, Sample.account] at hadmin
  · obtain ⟨barber, hbarber, -, rfl⟩ := hworks
    obtain ⟨shop, hshop, howner⟩ := howned
    obtain rfl : Sample.barber = barber := Option.some.inj hbarber
    obtain rfl : Sample.shop = shop := Option.some.inj hshop
    simp [Sample.shop, Sample.stylist, Sample.account] at howner

end BarberHub
