/-!
# The program's name and release
-/

namespace ChannelRouter

namespace Program

/-- The name under which the program is run unless it is given another. -/
def name : String := "astrond"

/-- The release of the program. -/
def version : String := "0.1.0"

end Program

end ChannelRouter
