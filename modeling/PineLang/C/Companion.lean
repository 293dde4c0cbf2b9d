import PineLang.Text.Utf8

/-!
# Companion files

Every program is linked with a small C library: a garbage collector and the functions that print.
These are its files, line by line, to be written beside the generated ones.
-/
namespace PineLang.C

/-- The garbage collector. -/
def collectorSource : List String := [
  "#include \"pine_gc.h\"",
  "",
  "#include <setjmp.h>",
  "#include <stdio.h>",
  "#include <stdlib.h>",
  "#include <string.h>",
  "",
  "PineGc gc;",
  "",
  "#define PRIMES_COUNT 30",
  "",
  "static const size_t gc_primes[PRIMES_COUNT] = \x7b",
  "    0,       1,       5,       11,      23,       53,       101,      197,       389,       683,",
  "    1259,    2417,    4733,    9371,    18617,    37097,    74093,    148073,    296099,    592019,",
  "    1100009, 2200013, 4400021, 8800019, 17600039, 35200091, 70400203, 140800427, 281600857, 563201731\x7d;",
  "",
  "static size_t gc_ideal_size(size_t size)",
  "\x7b",
  "    for (size_t i = 0; i < PRIMES_COUNT; ++i)",
  "    \x7b",
  "        if (gc_primes[i] > size)",
  "        \x7b",
  "            return gc_primes[i];",
  "        \x7d",
  "    \x7d",
  "    return gc_primes[PRIMES_COUNT - 1];",
  "\x7d",
  "",
  "static size_t gc_hash(void *ptr)",
  "\x7b",
  "    uintptr_t ad = (uintptr_t)ptr;",
  "    return (size_t)((13 * ad) ^ (ad >> 15));",
  "\x7d",
  "",
  "static size_t gc_sweep_limit(PineAllocationMap *am)",
  "\x7b",
  "    return am->nitems + (size_t)(am->sweep_factor * (double)(am->nslots - am->nitems));",
  "\x7d",
  "",
  "static PineAllocationMap *gc_map_new(size_t nslots_init, size_t nslots_min, double sweep_factor, double lf_down,",
  "                                     double lf_up)",
  "\x7b",
  "    nslots_min = gc_ideal_size(nslots_min);",
  "    nslots_init = nslots_init < nslots_min ? nslots_min : gc_ideal_size(nslots_init);",
  "",
  "    PineAllocationMap *am = (PineAllocationMap *)malloc(sizeof(PineAllocationMap));",
  "    if (am == NULL)",
  "    \x7b",
  "        fprintf(stderr, \"pine: out of memory\\n\");",
  "        exit(42);",
  "    \x7d",
  "    am->nslots = nslots_init;",
  "    am->nslots_min = nslots_min;",
  "    am->nitems = 0;",
  "    am->sweep_factor = sweep_factor;",
  "    am->lf_down = lf_down;",
  "    am->lf_up = lf_up;",
  "    am->allocs = (PineAllocation **)calloc(am->nslots, sizeof(PineAllocation *));",
  "    am->sweep_limit = gc_sweep_limit(am);",
  "    return am;",
  "\x7d",
  "",
  "static void gc_map_resize(PineAllocationMap *am, size_t capacity)",
  "\x7b",
  "    PineAllocation **resized = (PineAllocation **)calloc(capacity, sizeof(PineAllocation *));",
  "    if (resized == NULL)",
  "    \x7b",
  "        return;",
  "    \x7d",
  "    for (size_t i = 0; i < am->nslots; ++i)",
  "    \x7b",
  "        PineAllocation *a = am->allocs[i];",
  "        while (a != NULL)",
  "        \x7b",
  "            PineAllocation *next = a->next;",
  "            size_t ix = gc_hash(a->ptr) % capacity;",
  "            a->next = resized[ix];",
  "            resized[ix] = a;",
  "            a = next;",
  "        \x7d",
  "    \x7d",
  "    free(am->allocs);",
  "    am->allocs = resized;",
  "    am->nslots = capacity;",
  "    am->sweep_limit = gc_sweep_limit(am);",
  "\x7d",
  "",
  "static void gc_map_fit(PineAllocationMap *am)",
  "\x7b",
  "    double load = (double)am->nitems / (double)am->nslots;",
  "    size_t ideal = gc_ideal_size(am->nitems);",
  "    if (load > am->lf_up && ideal > am->nslots)",
  "    \x7b",
  "        gc_map_resize(am, ideal);",
  "    \x7d",
  "    else if (load < am->lf_down)",
  "    \x7b",
  "        if (ideal < am->nslots_min)",
  "        \x7b",
  "            ideal = am->nslots_min;",
  "        \x7d",
  "        if (ideal < am->nslots)",
  "        \x7b",
  "            gc_map_resize(am, ideal);",
  "        \x7d",
  "    \x7d",
  "\x7d",
  "",
  "static PineAllocation *gc_map_get(PineAllocationMap *am, void *ptr)",
  "\x7b",
  "    PineAllocation *a = am->allocs[gc_hash(ptr) % am->nslots];",
  "    while (a != NULL && a->ptr != ptr)",
  "    \x7b",
  "        a = a->next;",
  "    \x7d",
  "    return a;",
  "\x7d",
  "",
  "static void gc_map_put(PineAllocationMap *am, void *ptr, size_t size)",
  "\x7b",
  "    PineAllocation *a = (PineAllocation *)malloc(sizeof(PineAllocation));",
  "    if (a == NULL)",
  "    \x7b",
  "        fprintf(stderr, \"pine: out of memory\\n\");",
  "        exit(42);",
  "    \x7d",
  "    size_t ix = gc_hash(ptr) % am->nslots;",
  "    a->ptr = ptr;",
  "    a->size = size;",
  "    a->tag = PINE_GC_NONE;",
  "    a->next = am->allocs[ix];",
  "    am->allocs[ix] = a;",
  "    am->nitems++;",
  "    gc_map_fit(am);",
  "\x7d",
  "",
  "static void gc_mark_alloc(PineGc *gc, void *ptr)",
  "\x7b",
  "    PineAllocation *a = gc_map_get(gc->allocs, ptr);",
  "    if (a == NULL || (a->tag & PINE_GC_MARK))",
  "    \x7b",
  "        return;",
  "    \x7d",
  "    a->tag |= PINE_GC_MARK;",
  "    if (a->size < sizeof(void *))",
  "    \x7b",
  "        return;",
  "    \x7d",
  "    char *end = (char *)a->ptr + a->size - sizeof(void *);",
  "    for (char *p = (char *)a->ptr; p <= end; p += sizeof(void *))",
  "    \x7b",
  "        void *candidate;",
  "        memcpy(&candidate, p, sizeof(void *));",
  "        gc_mark_alloc(gc, candidate);",
  "    \x7d",
  "\x7d",
  "",
  "static void gc_mark_stack(PineGc *gc)",
  "\x7b",
  "    char top_marker;",
  "    char *top = &top_marker;",
  "    char *bot = (char *)gc->bottom;",
  "    char *lo = top < bot ? top : bot;",
  "    char *hi = top < bot ? bot : top;",
  "",
  "    lo = (char *)((uintptr_t)lo & ~(uintptr_t)(sizeof(void *) - 1));",
  "    for (char *p = lo; p + sizeof(void *) <= hi; p += sizeof(void *))",
  "    \x7b",
  "        void *candidate;",
  "        memcpy(&candidate, p, sizeof(void *));",
  "        gc_mark_alloc(gc, candidate);",
  "    \x7d",
  "\x7d",
  "",
  "static void gc_mark(PineGc *gc)",
  "\x7b",
  "    for (size_t i = 0; i < gc->allocs->nslots; ++i)",
  "    \x7b",
  "        for (PineAllocation *a = gc->allocs->allocs[i]; a != NULL; a = a->next)",
  "        \x7b",
  "            if (a->tag & PINE_GC_ROOT)",
  "            \x7b",
  "                gc_mark_alloc(gc, a->ptr);",
  "            \x7d",
  "        \x7d",
  "    \x7d",
  "",
  "    /* spill callee-saved registers onto the stack before scanning it */",
  "    void (*volatile mark_stack)(PineGc *) = gc_mark_stack;",
  "    jmp_buf env;",
  "    memset(&env, 0, sizeof(jmp_buf));",
  "    setjmp(env);",
  "    mark_stack(gc);",
  "\x7d",
  "",
  "static size_t gc_sweep(PineGc *gc)",
  "\x7b",
  "    size_t freed = 0;",
  "    PineAllocationMap *am = gc->allocs;",
  "    for (size_t i = 0; i < am->nslots; ++i)",
  "    \x7b",
  "        PineAllocation **link = &am->allocs[i];",
  "        while (*link != NULL)",
  "        \x7b",
  "            PineAllocation *a = *link;",
  "            if (a->tag & (PINE_GC_MARK | PINE_GC_ROOT))",
  "            \x7b",
  "                a->tag &= ~PINE_GC_MARK;",
  "                link = &a->next;",
  "                continue;",
  "            \x7d",
  "            *link = a->next;",
  "            freed += a->size;",
  "            free(a->ptr);",
  "            free(a);",
  "            am->nitems--;",
  "        \x7d",
  "    \x7d",
  "    gc_map_fit(am);",
  "    return freed;",
  "\x7d",
  "",
  "void gc_run(PineGc *gc)",
  "\x7b",
  "    gc_mark(gc);",
  "    gc_sweep(gc);",
  "\x7d",
  "",
  "void *gc_malloc(PineGc *gc, size_t size)",
  "\x7b",
  "    if (gc->allocs->nitems > gc->allocs->sweep_limit && !gc->paused)",
  "    \x7b",
  "        gc_run(gc);",
  "    \x7d",
  "    void *ptr = calloc(1, size == 0 ? 1 : size);",
  "    if (ptr == NULL)",
  "    \x7b",
  "        fprintf(stderr, \"pine: allocation of %lu bytes failed\\n\", (unsigned long)size);",
  "        exit(42);",
  "    \x7d",
  "    gc_map_put(gc->allocs, ptr, size);",
  "    return ptr;",
  "\x7d",
  "",
  "void *gc_malloc_static(PineGc *gc, size_t size)",
  "\x7b",
  "    void *ptr = gc_malloc(gc, size);",
  "    gc_map_get(gc->allocs, ptr)->tag |= PINE_GC_ROOT;",
  "    return ptr;",
  "\x7d",
  "",
  "void gc_start_ext(PineGc *gc, void *bottom, size_t nslots_init, size_t nslots_min, double lf_down, double lf_up,",
  "                  double sweep_factor)",
  "\x7b",
  "    gc->paused = false;",
  "    gc->bottom = bottom;",
  "    gc->allocs = gc_map_new(nslots_init, nslots_min, sweep_factor, lf_down, lf_up);",
  "\x7d",
  "",
  "void gc_start(PineGc *gc, void *bottom)",
  "\x7b",
  "    gc_start_ext(gc, bottom, 1024, 1024, 0.2, 0.8, 0.5);",
  "\x7d",
  "",
  "size_t gc_stop(PineGc *gc)",
  "\x7b",
  "    size_t freed = 0;",
  "    PineAllocationMap *am = gc->allocs;",
  "    if (am == NULL)",
  "    \x7b",
  "        return 0;",
  "    \x7d",
  "    for (size_t i = 0; i < am->nslots; ++i)",
  "    \x7b",
  "        PineAllocation *a = am->allocs[i];",
  "        while (a != NULL)",
  "        \x7b",
  "            PineAllocation *next = a->next;",
  "            freed += a->size;",
  "            free(a->ptr);",
  "            free(a);",
  "            a = next;",
  "        \x7d",
  "    \x7d",
  "    free(am->allocs);",
  "    free(am);",
  "    gc->allocs = NULL;",
  "    return freed;",
  "\x7d"]

/-- What the garbage collector offers to generated code. -/
def collectorHeader : List String := [
  "#ifndef PINE_GC_H",
  "#define PINE_GC_H",
  "",
  "#include <stdbool.h>",
  "#include <stddef.h>",
  "#include <stdint.h>",
  "",
  "typedef enum PineGcFlag",
  "\x7b",
  "    PINE_GC_NONE = 0x0,",
  "    PINE_GC_ROOT = 0x1,",
  "    PINE_GC_MARK = 0x2,",
  "\x7d PineGcFlag;",
  "",
  "typedef struct PineAllocation",
  "\x7b",
  "    void *ptr;",
  "    size_t size;",
  "    PineGcFlag tag;",
  "    struct PineAllocation *next; /* collision chain */",
  "\x7d PineAllocation;",
  "",
  "typedef struct PineAllocationMap",
  "\x7b",
  "    size_t nslots;",
  "    size_t nslots_min;",
  "    size_t nitems;",
  "    double lf_down;",
  "    double lf_up;",
  "    double sweep_factor;",
  "    size_t sweep_limit;",
  "    PineAllocation **allocs;",
  "\x7d PineAllocationMap;",
  "",
  "typedef struct PineGc",
  "\x7b",
  "    PineAllocationMap *allocs;",
  "    bool paused;",
  "    void *bottom;",
  "\x7d PineGc;",
  "",
  "/* The collector used by generated code. */",
  "extern PineGc gc;",
  "",
  "void gc_start(PineGc *gc, void *bottom);",
  "void gc_start_ext(PineGc *gc, void *bottom, size_t nslots_init, size_t nslots_min, double lf_down, double lf_up,",
  "                  double sweep_factor);",
  "size_t gc_stop(PineGc *gc);",
  "void gc_run(PineGc *gc);",
  "",
  "void *gc_malloc(PineGc *gc, size_t size);",
  "void *gc_malloc_static(PineGc *gc, size_t size);",
  "",
  "#endif"]

/-- The printing functions. -/
def printingSource : List String := [
  "#include \"pine_io.h\"",
  "",
  "#include <inttypes.h>",
  "#include <stdio.h>",
  "",
  "void print_int(int64_t i)",
  "\x7b",
  "    printf(\"%\" PRId64 \"\\n\", i);",
  "\x7d",
  "",
  "void print_bool(uint8_t b)",
  "\x7b",
  "    printf(b ? \"true\\n\" : \"false\\n\");",
  "\x7d",
  "",
  "void print_float(double f)",
  "\x7b",
  "    printf(\"%g\\n\", f);",
  "\x7d",
  "",
  "void print_str(char *s)",
  "\x7b",
  "    printf(\"%s\\n\", s == NULL ? \"nil\" : s);",
  "\x7d"]

/-- What the printing functions offer to generated code. -/
def printingHeader : List String := [
  "#ifndef PINE_IO_H",
  "#define PINE_IO_H",
  "",
  "#include <stdint.h>",
  "",
  "void print_int(int64_t i);",
  "void print_bool(uint8_t b);",
  "void print_float(double f);",
  "void print_str(char *s);",
  "",
  "#endif"]

/-- The companion files by name, in order. -/
def companions : List (String × Bytes) :=
  [("pine_gc.c", collectorSource), ("pine_gc.h", collectorHeader), ("pine_io.c", printingSource),
    ("pine_io.h", printingHeader)].map fun (name, lines) =>
      (name, utf8 (String.join (lines.map (· ++ "\n"))))

end PineLang.C
