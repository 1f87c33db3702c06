/-
`src/db/bucket.rs`: buckets and their CORS rules.
-/
import Tg2s3.Db.Support

set_option autoImplicit false

namespace Tg2s3

open Relational

/-- `INSERT OR IGNORE INTO buckets`; the answer is whether a row was added. -/
def create_bucket (db : Database) (now : Int) (name : String) : Database × Bool :=
  ({ db with
      buckets := insertOrIgnore (·.name) { name := name, created_at := now : BucketRow } db.buckets },
    decide (name ∉ db.buckets.map (·.name)))

def bucket_exists (db : Database) (name : String) : Bool := decide (name ∈ db.buckets.map (·.name))

/-- `none`: no such bucket; `some false`: it is occupied. -/
def delete_bucket (db : Database) (name : String) : Database × Option Bool :=
  if name ∉ db.buckets.map (·.name) then (db, none)
  else if name ∈ db.objects.map (·.bucket) ∨ name ∈ db.multipart_uploads.map (·.bucket) then
    (db, some false)
  else
    ({ db with
        bucket_cors := deleteWhere (·.bucket = name) db.bucket_cors
        buckets := deleteWhere (·.name = name) db.buckets }, some true)

def get_bucket_cors (db : Database) (bucket : String) : Option CorsConfiguration :=
  (lookup (·.bucket) bucket db.bucket_cors).map (·.configuration)

/-- `INSERT ... ON CONFLICT(bucket) DO UPDATE`. -/
def set_bucket_cors (db : Database) (now : Int) (bucket : String)
    (configuration : CorsConfiguration) : Database :=
  if bucket ∈ db.bucket_cors.map (·.bucket) then
    { db with
      bucket_cors := updateWhere (·.bucket = bucket)
        (fun r => { r with configuration := configuration, updated_at := now }) db.bucket_cors }
  else
    { db with
      bucket_cors := db.bucket_cors ++
        [{ bucket := bucket, configuration := configuration, created_at := now,
           updated_at := now }] }

def delete_bucket_cors (db : Database) (bucket : String) : Database :=
  { db with bucket_cors := deleteWhere (·.bucket = bucket) db.bucket_cors }

end Tg2s3
