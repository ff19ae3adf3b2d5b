import BarberHub.Slots.Bookable

/-!
# The availability computation under interference

`available_slots` makes several statements, and other transactions may commit
between them.  As long as they leave the directory alone (users, shops,
barbers, services and working hours), the answer is the one the computation
would give alone on a database put together from what its statements saw: the
closures at one moment, the appointments at a later one and the breaks at a
later one still.
-/

namespace BarberHub

open HalfOpen ReadCommitted Program

/-- The tables that closing, booking and blocking time leave alone. -/
structure Database.SameDirectory (a b : Database) : Prop where
  users : a.users = b.users
  barbershops : a.barbershops = b.barbershops
  barbers : a.barbers = b.barbers
  services : a.services = b.services
  barberServices : a.barberServices = b.barberServices
  workingHours : a.workingHours = b.workingHours

namespace Database.SameDirectory

variable {a b c : Database}

theorem refl (a : Database) : a.SameDirectory a :=
  ⟨rfl, rfl, rfl, rfl, rfl, rfl⟩

theorem trans (h : a.SameDirectory b) (h' : b.SameDirectory c) :
    a.SameDirectory c :=
  ⟨h.users.trans h'.users, h.barbershops.trans h'.barbershops,
    h.barbers.trans h'.barbers, h.services.trans h'.services,
    h.barberServices.trans h'.barberServices,
    h.workingHours.trans h'.workingHours⟩

theorem symm (h : a.SameDirectory b) : b.SameDirectory a :=
  ⟨h.users.symm, h.barbershops.symm, h.barbers.symm, h.services.symm,
    h.barberServices.symm, h.workingHours.symm⟩

theorem barber? (h : a.SameDirectory b) : a.barber? = b.barber? := by
  unfold Database.barber?
  rw [h.barbers]

theorem barbershop? (h : a.SameDirectory b) :
    a.barbershop? = b.barbershop? := by
  unfold Database.barbershop?
  rw [h.barbershops]

theorem service? (h : a.SameDirectory b) : a.service? = b.service? := by
  unfold Database.service?
  rw [h.services]

theorem user? (h : a.SameDirectory b) : a.user? = b.user? := by
  unfold Database.user?
  rw [h.users]

theorem servicesOf (h : a.SameDirectory b) :
    a.servicesOf = b.servicesOf := by
  unfold Database.servicesOf
  rw [h.barberServices]

theorem activeBarber (h : a.SameDirectory b) :
    a.activeBarber = b.activeBarber := by
  unfold Database.activeBarber
  rw [h.barber?, h.servicesOf]

theorem activeShop (h : a.SameDirectory b) : a.activeShop = b.activeShop := by
  unfold Database.activeShop
  rw [h.barbershop?]

theorem activeService (h : a.SameDirectory b) :
    a.activeService = b.activeService := by
  unfold Database.activeService
  rw [h.service?]

theorem hoursOn (h : a.SameDirectory b) : a.hoursOn = b.hoursOn := by
  unfold Database.hoursOn
  rw [h.workingHours]

theorem sells_iff (h : a.SameDirectory b)
    {barberId serviceId : Uuid} {barber : Barber} {shop : Barbershop}
    {service : Service} :
    a.Sells barberId serviceId barber shop service ↔
      b.Sells barberId serviceId barber shop service := by
  rw [Database.sells_iff, Database.sells_iff, h.activeBarber, h.activeShop,
    h.activeService]

end Database.SameDirectory

/-- The database as the statements of one computation saw it. -/
def Database.seenAs (db closures appointments breaks : Database) : Database where
  users := db.users
  barbershops := db.barbershops
  barbers := db.barbers
  services := db.services
  barberServices := db.barberServices
  workingHours := db.workingHours
  barberBreaks := breaks.barberBreaks
  shopClosures := closures.shopClosures
  appointments := appointments.appointments
  refreshTokens := db.refreshTokens
  reviews := db.reviews
  appointmentReminders := db.appointmentReminders
  queue := db.queue

theorem Database.sameDirectory_seenAs (db c a b : Database) :
    db.SameDirectory (db.seenAs c a b) :=
  ⟨rfl, rfl, rfl, rfl, rfl, rfl⟩

/-! ## Programs that read only the directory -/

theorem respects_rowOr {α : Type} (R : Database → Database → Prop)
    (e : Raised) (row : Option α) : (rowOr e row).Respects R := by
  cases row <;> trivial

theorem respects_require (R : Database → Database → Prop)
    (p : Prop) [Decidable p] (e : Raised) : (require p e).Respects R := by
  rw [require]
  split <;> trivial

theorem respects_loadAndValidate (barberId serviceId : Uuid) :
    (loadAndValidate barberId serviceId).Respects Database.SameDirectory := by
  rw [loadAndValidate]
  refine (respects_query fun a b h => by rw [h.activeBarber]).bind fun found => ?_
  apply (respects_rowOr _ _ _).bind
  intro pair
  refine (respects_query fun a b h => by rw [h.activeShop]).bind fun found' => ?_
  apply (respects_rowOr _ _ _).bind
  intro shop
  refine (respects_query fun a b h => by rw [h.activeService]).bind fun row => ?_
  apply (respects_rowOr _ _ _).bind
  intro service
  apply (respects_require _ _ _).bind
  intro _
  exact (respects_require _ _ _).bind fun _ => trivial

theorem respects_shiftsFor (barberId : Uuid) (day : ℤ) (tz : Zone) :
    (shiftsFor barberId day tz).Respects Database.SameDirectory := by
  rw [shiftsFor]
  refine (respects_query fun a b h => by rw [h.hoursOn]).bind fun rows => ?_
  exact (respects_ofExcept _).bind fun shifts => trivial

theorem readOnly_taken (barberId : Uuid) (window : Interval)
    (exclude : Option Uuid) (ignoreAppointments : Bool) :
    (taken barberId window exclude ignoreAppointments).ReadOnly := by
  rw [taken]
  split
  · trivial
  · exact (readOnly_query _).bind fun _ => readOnly_ofExcept _

theorem readOnly_breaks (barberId : Uuid) (window : Interval) :
    (breaks barberId window).ReadOnly :=
  (readOnly_query _).bind fun _ => readOnly_ofExcept _

/-! ## The parts of the computation -/

/-- `available_slots` from its query for appointments on. -/
def slotsOnWorkingDay (env : Env) (barberId : Uuid) (day : ℤ) (tz : Zone)
    (service : Service) (now : ℤ) (exclude : Option Uuid)
    (ignoreAppointments : Bool) (window : Interval) (shifts : List Interval) :
    Request AvailabilityRead := do
  let taken ← taken barberId window exclude ignoreAppointments
  let blocked ← breaks barberId window
  let busy := clip (taken ++ blocked) window
  let slots ← ofExcept (freeSlots env service now window shifts busy)
  ofExcept (render day tz barberId service slots)

/-- `available_slots` from its query for shifts on. -/
def slotsOnOpenDay (env : Env) (barberId : Uuid) (day : ℤ) (tz : Zone)
    (service : Service) (now : ℤ) (exclude : Option Uuid)
    (ignoreAppointments : Bool) (window : Interval) :
    Request AvailabilityRead := do
  let shifts ← shiftsFor barberId day tz
  if shifts.isEmpty then
    ofExcept (render day tz barberId service [])
  else
    slotsOnWorkingDay env barberId day tz service now exclude
      ignoreAppointments window shifts

/-- `available_slots` once its checks have passed. -/
def slotsOnDay (env : Env) (barberId : Uuid) (day : ℤ) (shop : Barbershop)
    (service : Service) (now : ℤ) (exclude : Option Uuid)
    (ignoreAppointments : Bool) : Request AvailabilityRead := do
  let tz := env.shopTimezone shop
  let window ← ofExcept (localDayBounds day tz)
  if ← isClosed shop.id day then
    ofExcept (render day tz barberId service [])
  else
    slotsOnOpenDay env barberId day tz service now exclude
      ignoreAppointments window

theorem availableSlots_eq
    (env : Env) (barberId : Uuid) (day : ℤ) (serviceId : Uuid) (now : ℤ)
    (exclude : Option Uuid) (ignoreAppointments : Bool) :
    availableSlots env barberId day serviceId now exclude ignoreAppointments =
      (do
        let (_, shop, service) ← loadAndValidate barberId serviceId
        slotsOnDay env barberId day shop service now exclude
          ignoreAppointments) := rfl

theorem readOnly_slotsOnOpenDay
    (env : Env) (barberId : Uuid) (day : ℤ) (tz : Zone) (service : Service)
    (now : ℤ) (exclude : Option Uuid) (ignoreAppointments : Bool)
    (window : Interval) :
    (slotsOnOpenDay env barberId day tz service now exclude
      ignoreAppointments window).ReadOnly := by
  unfold slotsOnOpenDay slotsOnWorkingDay
  apply (respects_shiftsFor barberId day _).readOnly.bind
  intro shifts
  split
  · exact readOnly_ofExcept _
  refine (readOnly_taken _ _ _ _).bind fun taken =>
    (readOnly_breaks _ _).bind fun blocked => ?_
  exact (readOnly_ofExcept _).bind fun slots => readOnly_ofExcept _

theorem readOnly_slotsOnDay
    (env : Env) (barberId : Uuid) (day : ℤ) (shop : Barbershop)
    (service : Service) (now : ℤ) (exclude : Option Uuid)
    (ignoreAppointments : Bool) :
    (slotsOnDay env barberId day shop service now exclude
      ignoreAppointments).ReadOnly := by
  refine (readOnly_ofExcept _).bind fun window =>
    (readOnly_query _).bind fun closed => ?_
  split
  · exact readOnly_ofExcept _
  · exact readOnly_slotsOnOpenDay _ _ _ _ _ _ _ _ _

/-- The endpoint writes nothing. -/
theorem readOnly_availableSlots
    (env : Env) (barberId : Uuid) (day : ℤ) (serviceId : Uuid) (now : ℤ)
    (exclude : Option Uuid) (ignoreAppointments : Bool) :
    (availableSlots env barberId day serviceId now exclude
      ignoreAppointments).ReadOnly := by
  rw [availableSlots_eq]
  exact (respects_loadAndValidate barberId serviceId).readOnly.bind
    fun ⟨_, shop, service⟩ => readOnly_slotsOnDay _ _ _ _ _ _ _ _

/-- An answer of the endpoint, found by evaluating it. -/
theorem exists_offer_of_any
    {env : Env} {db : Database} {barberId : Uuid} {day : ℤ} {serviceId : Uuid}
    {now : ℤ} {exclude : Option Uuid} {ignoreAppointments : Bool}
    {p : AvailabilityRead → Bool}
    (h : ((availableSlots env barberId day serviceId now exclude
      ignoreAppointments).run db).1.toOption.any p = true) :
    ∃ offer, (availableSlots env barberId day serviceId now exclude
        ignoreAppointments).run db = (.ok offer, db) ∧ p offer = true := by
  rcases hanswer : ((availableSlots env barberId day serviceId now exclude
    ignoreAppointments).run db).1 with e | offer
  · rw [hanswer] at h
    simp [Except.toOption] at h
  · rw [hanswer] at h
    exact ⟨offer, Prod.ext hanswer
      ((readOnly_availableSlots _ _ _ _ _ _ _).run_state _), h⟩

/-! ## The answer under interference -/

section

variable {rely guar : Database → Database → Prop}

theorem taken_ensures
    (hrely : IsRely rely) (barberId : Uuid) (window : Interval)
    (exclude : Option Uuid) (ignoreAppointments : Bool) (s : Database) :
    (taken barberId window exclude ignoreAppointments).Ensures rely guar
      (fun r t => ∃ a, rely s a ∧ rely a t ∧
        r = ((taken barberId window exclude ignoreAppointments).run a).1) s := by
  cases ignoreAppointments
  · exact fun a ha _ ht => ⟨a, ha, ht, rfl⟩
  · exact fun t ht => ⟨t, ht, hrely.refl t, rfl⟩

theorem breaks_ensures (barberId : Uuid) (window : Interval) (s : Database) :
    (breaks barberId window).Ensures rely guar
      (fun r t => ∃ b, rely s b ∧ rely b t ∧
        r = ((breaks barberId window).run b).1) s :=
  fun b hb _ ht => ⟨b, hb, ht, rfl⟩

/-- The appointments are read from the table of appointments only. -/
theorem run_taken_seenAs
    (barberId : Uuid) (window : Interval) (exclude : Option Uuid)
    (ignoreAppointments : Bool) (s c a b : Database) :
    (taken barberId window exclude ignoreAppointments).run (s.seenAs c a b) =
      (((taken barberId window exclude ignoreAppointments).run a).1,
        s.seenAs c a b) := by
  cases ignoreAppointments <;> rfl

theorem run_breaks_seenAs
    (barberId : Uuid) (window : Interval) (s c a b : Database) :
    (breaks barberId window).run (s.seenAs c a b) =
      (((breaks barberId window).run b).1, s.seenAs c a b) := rfl

theorem run_seenAs_of_respects
    {α : Type} {p : Request α} (h : p.Respects Database.SameDirectory)
    (s c a b : Database) :
    p.run (s.seenAs c a b) = ((p.run s).1, s.seenAs c a b) :=
  Prod.ext (h.run_eq (s.sameDirectory_seenAs c a b)).symm
    (h.readOnly.run_state _)

/-- The closures are read from the table of closures only. -/
theorem run_isClosed_seenAs
    (shopId : Uuid) (day : ℤ) (s c a b : Database) :
    (isClosed shopId day).run (s.seenAs c a b) =
      (.ok (decide (c.ClosedOn shopId day)), s.seenAs c a b) := rfl

theorem slotsOnWorkingDay_ensures
    (hrely : IsRely rely)
    (env : Env) (barberId : Uuid) (day : ℤ) (tz : Zone) (service : Service)
    (now : ℤ) (exclude : Option Uuid) (ignoreAppointments : Bool)
    (window : Interval) (shifts : List Interval) (s₀ c s : Database) :
    (slotsOnWorkingDay env barberId day tz service now exclude
        ignoreAppointments window shifts).Ensures rely guar
      (fun r t => ∃ a b, rely s a ∧ rely a b ∧ rely b t ∧
        r = ((slotsOnWorkingDay env barberId day tz service now exclude
          ignoreAppointments window shifts).run (s₀.seenAs c a b)).1) s := by
  rw [slotsOnWorkingDay]
  refine Ensures.bind hrely
    ((taken_ensures hrely barberId window exclude ignoreAppointments s).mono
      (fun _ _ h => h) ?_)
  rintro r t ⟨a, hsa, hat, rfl⟩
  simp only [run_bind, run_taken_seenAs]
  rcases htaken : ((taken barberId window exclude ignoreAppointments).run a).1
    with e | taken
  · exact ⟨a, t, hsa, hat, hrely.refl t, by rw [htaken]⟩
  dsimp only
  refine Ensures.bind hrely
    ((breaks_ensures barberId window t).mono (fun _ _ h => h) ?_)
  rintro r u ⟨b, htb, hbu, rfl⟩
  rcases hblocked : ((breaks barberId window).run b).1 with e | blocked
  · exact ⟨a, b, hsa, hrely.trans hat htb, hbu, by
      simp [htaken, run_breaks_seenAs, hblocked]⟩
  dsimp only
  rcases hslots : freeSlots env service now window shifts
      (clip (taken ++ blocked) window) with e | slots
  · exact fun v hv => ⟨a, b, hsa, hrely.trans hat htb, hrely.trans hbu hv, by
      simp [htaken, run_breaks_seenAs, hblocked, hslots]⟩
  · exact fun v hv => ⟨a, b, hsa, hrely.trans hat htb, hrely.trans hbu hv, by
      simp [htaken, run_breaks_seenAs, hblocked, hslots]⟩

theorem slotsOnOpenDay_ensures
    (hdir : ∀ a b, rely a b → a.SameDirectory b)
    (hrely : IsRely rely)
    (env : Env) (barberId : Uuid) (day : ℤ) (tz : Zone) (service : Service)
    (now : ℤ) (exclude : Option Uuid) (ignoreAppointments : Bool)
    (window : Interval) {s₀ s : Database} (hs : s₀.SameDirectory s)
    (c : Database) :
    (slotsOnOpenDay env barberId day tz service now exclude
        ignoreAppointments window).Ensures rely guar
      (fun r t => ∃ a b, rely s a ∧ rely a b ∧ rely b t ∧
        r = ((slotsOnOpenDay env barberId day tz service now exclude
          ignoreAppointments window).run (s₀.seenAs c a b)).1) s := by
  have hrespects := respects_shiftsFor barberId day tz
  rw [slotsOnOpenDay]
  refine Ensures.bind hrely
    ((hrespects.ensures hrely hdir).mono (fun _ _ h => h) ?_)
  rintro r t ⟨rfl, hst⟩
  rw [← hrespects.run_eq hs]
  simp only [run_bind, run_seenAs_of_respects hrespects]
  rcases hshifts : ((shiftsFor barberId day tz).run s₀).1 with e | shifts
  · exact ⟨t, t, hst, hrely.refl t, hrely.refl t, rfl⟩
  dsimp only
  by_cases hoff : shifts.isEmpty = true
  · rw [if_pos hoff]
    exact fun u hu => ⟨u, u, hrely.trans hst hu, hrely.refl u, hrely.refl u, rfl⟩
  · rw [if_neg hoff]
    apply (slotsOnWorkingDay_ensures hrely env barberId day tz service
      now exclude ignoreAppointments window shifts s₀ c t).mono
        (fun _ _ h => h)
    rintro r u ⟨a, b, hta, hab, hbu, rfl⟩
    exact ⟨a, b, hrely.trans hst hta, hab, hbu, rfl⟩

/-- The answer of the endpoint under interference is one it would give alone. -/
theorem availableSlots_ensures
    (hdir : ∀ a b, rely a b → a.SameDirectory b)
    (hrely : IsRely rely)
    (env : Env) (barberId : Uuid) (day : ℤ) (serviceId : Uuid) (now : ℤ)
    (exclude : Option Uuid) (ignoreAppointments : Bool) (s : Database) :
    (availableSlots env barberId day serviceId now exclude
        ignoreAppointments).Ensures rely guar
      (fun r t => ∃ c a b, rely s c ∧ rely c a ∧ rely a b ∧ rely b t ∧
        r = ((availableSlots env barberId day serviceId now exclude
          ignoreAppointments).run (s.seenAs c a b)).1) s := by
  have hrespects := respects_loadAndValidate barberId serviceId
  rw [availableSlots_eq]
  unfold slotsOnDay
  refine Ensures.bind hrely
    ((hrespects.ensures hrely hdir).mono (fun _ _ h => h) ?_)
  rintro r t ⟨rfl, hst⟩
  simp only [run_bind, run_seenAs_of_respects hrespects]
  rcases ((loadAndValidate barberId serviceId).run s).1 with
    e | ⟨barber, shop, service⟩
  · exact ⟨t, t, t, hst, hrely.refl t, hrely.refl t, hrely.refl t, rfl⟩
  dsimp only
  rcases localDayBounds day (env.shopTimezone shop) with e | window
  · intro u hu
    exact ⟨u, u, u, hrely.trans hst hu, hrely.refl u, hrely.refl u, hrely.refl u,
      rfl⟩
  -- the closures are read at `c`
  intro c hc
  have hsc := hrely.trans hst hc
  change Ensures rely guar _
    (if decide (c.ClosedOn shop.id day) = true then _ else _) c
  simp only [run_ofExcept, run_isClosed_seenAs]
  by_cases hday : c.ClosedOn shop.id day
  · rw [if_pos (decide_eq_true hday)]
    refine fun u hu => ⟨c, u, u, hsc, hu, hrely.refl u, hrely.refl u, ?_⟩
    rw [if_pos (decide_eq_true hday)]
    rfl
  · rw [if_neg (by simpa using hday)]
    apply (slotsOnOpenDay_ensures hdir hrely env barberId day _ service
      now exclude ignoreAppointments window (hdir s c hsc) c).mono
        (fun _ _ h => h)
    rintro r u ⟨a, b, hca, hab, hbu, rfl⟩
    refine ⟨c, a, b, hsc, hca, hab, hbu, ?_⟩
    rw [if_neg (by simpa using hday)]

end

end BarberHub
