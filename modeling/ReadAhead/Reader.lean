import ReadAhead.Cache.Bitmap
import ReadAhead.Cache.Key
import ReadAhead.Cache.Operation
import ReadAhead.Planner.State
import ReadAhead.Queue.Receipt
import ReadAhead.Queue.Settle
import ReadAhead.Viewport

/-!
  Reader — a document on the screen

  Planner, queue and cache at work together. When a page is shown, the planner
  says what to prefetch, and the page and those after it are submitted to the
  queue with the priorities that the viewport gives them. Rendering lets the one
  worker of the queue go through what was submitted; each task renders its page
  and puts the bitmap into the cache. While the screen is under load, background
  work can be switched off.

  This is the reader that the tests of the planner put together, with one worker where it
  has two, and with a queue that is paused where its work waits at a gate. The planner goes
  on with `Planner.apply`: a run in which a sum behind the reading speed leaves 64 bits is
  left out (`Planner.fits`).

  Correspondence (operation ↔ definition):
    `show`                       ↔ `Reader.showPage`
    `render`, the work of a task ↔ `Reader.work`
    `open_gate`, `wait`          ↔ `Reader.render`
    `sync_background_work`       ↔ `Reader.sync`
-/

namespace ReadAhead

/-- How the bitmap of a page is made. -/
abbrev Renderer := Count → WorkResult Bitmap

/-- A document that is being read. -/
structure Reader where
  planner : Planner Float
  clock : SteppedClock
  queue : Queue Count
  cache : Store PageKey Bitmap
  pageCount : Count
  width : UInt32
  /-- The page that each submitted task renders, the latest first. -/
  pages : List (TaskNumber × Count)
  /-- The tasks submitted since pages were last rendered, in order. -/
  awaited : List (TaskNumber × Count)

inductive ReaderEvent where
  | showPage (page : Count)
  | render (renderer : Renderer)
  | sync
  /-- The planner takes in something other than a page to show. -/
  | notify (event : PlannerEvent Float)
  | advance (time : Duration)
  | relieve (pressure : Pressure)
  | lookup (page : Count)
  | close

namespace Reader

/-- A document of so many pages, of which nothing was shown yet. The queue has
one worker and is paused. -/
def ofPlanner (planner : Planner Float) (pageCount : Count) (width : UInt32) (budget : Count) :
    Reader where
  planner := planner
  clock := .atOrigin
  queue := .start 1 true
  cache := .empty budget
  pageCount := pageCount
  width := width
  pages := []
  awaited := []

def start (tuning : Tuning Float) (pageCount : Count) (width : UInt32) (budget : Count) :
    Except SettingsError Reader :=
  (ofPlanner · pageCount width budget) <$> Planner.ofTuning tuning

/-- The work of a task: unless the task is cancelled, its page is rendered and
cached. -/
def work (r : Reader) (renderer : Renderer) : Works (Store PageKey Bitmap) Count :=
  fun id flagged cache =>
    let page := (r.pages.lookup id).getD 0
    if flagged then some (.ofResult (.error [TaskFault.cancelled.message]), cache)
    else
      match renderer page with
      | .error reasons => some (.ofResult (.error reasons), cache)
      | .crash text => some (.ofResult (.crash text), cache)
      | .value bitmap =>
        let key := PageKey.wholePage page r.width
        some (.ofResult (.value page), (cache.put (fun _ b => b.byteCount) key bitmap).2)

def settle (r : Reader) (renderer : Renderer) : Reader :=
  let (_, queue, cache) := r.queue.settle (r.work renderer) r.cache
  { r with queue := queue, cache := cache }

def submit (r : Reader) (page : Count) (priority : Priority) : Reader :=
  let (id, queue) := r.queue.submit priority 0
  { r with
    queue := queue
    pages := (id, page) :: r.pages
    awaited := r.awaited ++ [(id, page)] }

def notify (r : Reader) (event : PlannerEvent Float) : Reader :=
  { r with planner := r.planner.apply r.clock.now event }

/-- Shows a page, and submits it and the pages to prefetch: which ones, and with
which priorities. -/
def showPage (r : Reader) (page : Count) : List (Count × Priority) × Reader :=
  let r := r.notify (.page page r.pageCount)
  let targets := r.planner.output.targets
  let viewport := Viewport.ofPage page r.pageCount
  let wanted := (page :: targets).map fun p => (p, viewport.priorityWith targets p)
  (wanted, wanted.foldl (fun r (p, priority) => r.submit p priority) r)

/-- Renders what was submitted: the results, in the order of submission. -/
def render (r : Reader) (renderer : Renderer) :
    List (Count × Option (TaskAnswer Count)) × Reader :=
  let r := { r with queue := r.queue.resume }.settle renderer
  let r := { r with queue := r.queue.pause }
  (r.awaited.map fun (id, page) => (page, r.queue.result? id), { r with awaited := [] })

/-- Accepts background work exactly while the screen is not under load. -/
def sync (r : Reader) : Reader :=
  { r with queue := r.queue.setBackground (!r.planner.output.underLoad) }

/-- Shrinks the cache under memory pressure, and tells how many bitmaps were
evicted. -/
def relieve (r : Reader) (pressure : Pressure) : Nat × Reader :=
  let (departed, cache) := r.cache.relieve pressure
  (departed.length, { r with cache := cache })

def lookup (r : Reader) (page : Count) : Option Bitmap × Reader :=
  let (found, cache) := r.cache.get (.wholePage page r.width)
  (found, { r with cache := cache })

def close (r : Reader) : Reader := { r.notify .reset with cache := r.cache.clear.2 }

def apply (r : Reader) : ReaderEvent → Reader
  | .showPage page => (r.showPage page).2
  | .render renderer => (r.render renderer).2
  | .sync => r.sync
  | .notify event => r.notify event
  | .advance time => { r with clock := r.clock.advance time }
  | .relieve pressure => (r.relieve pressure).2
  | .lookup page => (r.lookup page).2
  | .close => r.close

def run (r : Reader) (events : List ReaderEvent) : Reader := events.foldl apply r

end Reader

end ReadAhead
