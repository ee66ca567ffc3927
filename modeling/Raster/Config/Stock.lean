/-
# The stock settings file

A settings file that names every setting with its stock value and says what each
one does; reading it gives the stock settings.
-/
import Raster.Config

namespace Raster

namespace Config

/-- The lines of the stock settings file. -/
def stockLines : List String := [
  "# imgport configuration",
  "# =====================",
  "# All settings are optional. Remove or comment out any you don't need.",
  "# Values shown below are the defaults.",
  "#",
  "# Unknown keys will cause an error.",
  "",
  "# ---------------------------------------------------------------------------",
  "# Loading",
  "# ---------------------------------------------------------------------------",
  "[load]",
  "# Decoded images larger than this are kept in a temporary file instead of",
  "# memory. Plain bytes or k / m / g suffixes. IMGPORT_DISC_THRESHOLD overrides.",
  "disc_threshold = \"100m\"",
  "",
  "# Set to false to never use temporary files.",
  "disc = true",
  "",
  "# How pixels will be read: random, sequential or sequential-unbuffered.",
  "access = \"random\"",
  "",
  "# Error level at which loaders give up: none, truncated, error or warning.",
  "fail_on = \"none\"",
  "",
  "# Always decode to memory, whatever the size.",
  "memory = false",
  "",
  "# ---------------------------------------------------------------------------",
  "# Load cache",
  "# ---------------------------------------------------------------------------",
  "[cache]",
  "# Share header reads and decodes between loads of the same input.",
  "enabled = true",
  "",
  "# Oldest entries are dropped past this many.",
  "max_entries = 100",
  "",
  "# ---------------------------------------------------------------------------",
  "# Saving",
  "# ---------------------------------------------------------------------------",
  "[save]",
  "# Metadata to keep: none, all, or any of exif, xmp, iptc, icc, other",
  "# joined with \"|\".",
  "keep = \"all\"",
  "",
  "# Colour to flatten alpha onto for formats without alpha. One value per",
  "# band, or a single value for all bands.",
  "background = [0.0]",
  "",
  "# ---------------------------------------------------------------------------",
  "# Processing",
  "# ---------------------------------------------------------------------------",
  "[processing]",
  "# Maximum worker threads for fetching pixels in parallel.",
  "# Omit or comment out to auto-detect (= number of CPU cores).",
  "# IMGPORT_CONCURRENCY overrides.",
  "# max_threads = 4"]

/-- The stock settings file. -/
def stockText : String := String.join (stockLines.map (· ++ "\n"))

end Config

end Raster
