import ChannelRouter.JsonText
import ChannelRouter.LogFilter
import ChannelRouter.Program

/-!
# Log records

A record has a level, a message and named fields, and is written in one line:
as an object for machines, or as words for people.
-/

namespace ChannelRouter

/-- A log record of the program itself. -/
structure LogRecord where
  level : LogLevel
  message : String
  /-- The names and the values of the fields. -/
  fields : List (String × String)
deriving DecidableEq, Repr

namespace LogRecord

/-- A record as an object. -/
def objectText (record : LogRecord) : String :=
  let fields := ("message", record.message) :: record.fields
  JsonText.object
    [ ("level", JsonText.quoted record.level.name),
      ("fields", JsonText.object (fields.map fun field =>
        (field.1, JsonText.quoted field.2))),
      ("target", JsonText.quoted Program.name) ]

/-- A record in words. -/
def plainText (record : LogRecord) : String :=
  String.intercalate " "
    ([record.level.name, Program.name ++ ":", record.message] ++
      record.fields.map fun field => field.1 ++ "=" ++ field.2)

end LogRecord

end ChannelRouter
